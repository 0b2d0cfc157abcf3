import OdooSemantic.Graph.Graph

/-!
# `src/indexer/writer_neo4j.py` — the graph writer, one statement at a time

Every `tx.run` of the writer is a *statement*: a value that says which query is sent with
which parameters, and an `exec` that says what the query does to the graph. A writer function
is then the list of statements it sends for its argument, and running it is folding `exec`
over that list. The only place where the writer looks at an answer is the pair "try to link
to a real node; when no row came back, link to a placeholder", and that pair is one statement
here.

The first `MATCH` of a follow-up statement (`MATCH (m:Model {name, module, odoo_version})` and
the like) always finds the node: the same transaction has just merged it under that key. The
statements of keyed labels therefore carry the key. For the XML labels the match can find
several nodes and the statement goes through all of them.

`ps` is `$profiles` throughout.
-/

namespace OdooSemantic

open KeyedStore FlaggedEdges

/-! ## Property updates -/

/-- `MERGE (mod:Module {name, odoo_version})` with nothing set. -/
def touchModule (k : ModuleKey) (t : Store ModuleKey ModuleProps) : Store ModuleKey ModuleProps :=
  upsert k (fun old => old.getD {}) t

/-- Set the `profile` array of a module and leave the rest of it alone. -/
def ModuleProps.union (ps : List String) (old : Option ModuleProps) : ModuleProps :=
  { old.getD {} with profile := some (unionProfile (old.bind (·.profile)) ps) }

/-- The module `MERGE` of `_write_parse_result`. -/
def ModuleProps.write (ps : List String) (m : ModuleInfo) (old : Option ModuleProps) :
    ModuleProps where
  repo := some m.repo
  path := some m.path
  versionRaw := some m.versionRaw
  edition := some m.edition
  viindooEquivalentQname := m.viindooEquivalentQname
  lastCommitSha := m.commitSha
  profile := some (unionProfile (old.bind (·.profile)) ps)

/-- `$had_explicit_name AND NOT $name IN $inherit_list`. -/
def ModelInfo.defines (m : ModelInfo) : Bool := m.hadExplicitName && !(m.name ∈ m.inherit)

/-- The model `MERGE` of `_write_parse_result`: `ON CREATE` sets the flags, `ON MATCH`
    overwrites two of them and ors the other two. -/
def ModelProps.write (ps : List String) (m : ModelInfo) : Option ModelProps → ModelProps
  | none =>
      { isTransient := some m.isTransient, isAbstract := some m.isAbstract,
        hadExplicitName := some m.hadExplicitName, isDefinition := some m.defines,
        profile := some ps }
  | some p =>
      { p with
        isTransient := some m.isTransient, isAbstract := some m.isAbstract,
        hadExplicitName := some (p.hadExplicitName.getD false || m.hadExplicitName),
        isDefinition := some (p.isDefinition.getD false || m.defines),
        profile := some (unionProfile p.profile ps) }

/-- The placeholder `MERGE` of a missing parent or delegate. -/
def ModelProps.stub (ps : List String) : Option ModelProps → ModelProps
  | none => { isDefinition := some false, unresolved := true, profile := some ps }
  | some p => { p with profile := some (unionProfile p.profile ps) }

def FieldProps.write (ps : List String) (f : FieldInfo) (old : Option FieldProps) :
    FieldProps where
  ttype := f.ttype
  related := f.related
  compute := f.compute
  stored := f.stored
  required := f.required
  comodelName := f.comodelName
  profile := some (unionProfile (old.bind (·.profile)) ps)

def MethodProps.write (ps : List String) (f : MethodInfo) (old : Option MethodProps) :
    MethodProps where
  hasSuperCall := f.hasSuperCall
  decorators := f.decorators
  conventionKind := f.conventionKind
  superSafety := f.superSafety
  returnRequired := f.returnRequired
  signature := f.signature
  depends := f.depends
  profile := some (unionProfile (old.bind (·.profile)) ps)

/-- `ON CREATE SET r.order = $order  ON MATCH SET r.order = coalesce(r.order, $order)`. -/
def backfillOrder (order : Nat) : Option (Option Nat) → Option Nat
  | none => some order
  | some r => some (r.getD order)

/-! ## `_write_parse_result` -/

inductive CodeStmt where
  /-- `MERGE (m:Module {name, odoo_version}) … SET …` -/
  | mergeModule (m : ModuleInfo)
  /-- `MERGE (d:Module {name: $dep, …}) … MERGE (m)-[:DEPENDS_ON]->(d)` -/
  | mergeDependency (m : ModuleKey) (dep : String)
  /-- `MERGE (mod:Module …) MERGE (m:Model {name, module, odoo_version}) …` -/
  | mergeModel (m : ModelInfo)
  /-- `MATCH (tip:Model {name, odoo_version}) WHERE tip.module <> $mod MERGE (ext)-[r:INHERITS]->(tip)` -/
  | extendSelf (m : ModelKey) (order : Nat)
  /-- Link to every real model called `parent`, else to its placeholder. -/
  | inheritParent (m : ModelKey) (parent : String) (order : Nat)
  /-- The same for `DELEGATES_TO {via_field}`. -/
  | delegateTo (m : ModelKey) (delegated viaField : String)
  | mergeField (m : ModelKey) (f : FieldInfo)
  | mergeMethod (m : ModelKey) (f : MethodInfo)
  /-- `MERGE (mth)-[:USES_CORE_SYMBOL]->(cs)` for the deprecated and removed matches. -/
  | useCoreSymbol (mth : MemberKey) (ref : String)
deriving DecidableEq

def ModuleInfo.key (m : ModuleInfo) : ModuleKey := ⟨m.name, m.odooVersion⟩

def ModelInfo.key (m : ModelInfo) : ModelKey := ⟨m.name, m.module, m.odooVersion⟩

/-- The key of the placeholder of a missing model. -/
def stubModel (name v : String) : ModelKey := ⟨name, unresolvedModule, v⟩

def ModelKey.moduleKey (k : ModelKey) : ModuleKey := ⟨k.module, k.odooVersion⟩

def ModelKey.member (k : ModelKey) (name : String) : MemberKey :=
  ⟨name, k.name, k.module, k.odooVersion⟩

namespace CodeStmt

def exec (ps : List String) (g : Graph) : CodeStmt → Graph
  | mergeModule m => { g with modules := upsert m.key (ModuleProps.write ps m) g.modules }
  | mergeDependency m dep =>
      let d : ModuleKey := ⟨dep, m.odooVersion⟩
      { g with
        modules := upsert d (ModuleProps.union ps) g.modules
        dependsOn := insert (m, d) g.dependsOn }
  | mergeModel m =>
      { g with
        modules := touchModule m.key.moduleKey g.modules
        models := upsert m.key (ModelProps.write ps m) g.models
        modelDefinedIn := insert (m.key, m.key.moduleKey) g.modelDefinedIn }
  | extendSelf m order =>
      let tips := (g.modelsNamed m.name m.odooVersion).filter fun k => k.module ≠ m.module
      { g with inherits := mergeAll m tips (backfillOrder order) g.inherits }
  | inheritParent m parent order =>
      let parents := g.resolvedModels parent m.odooVersion
      if parents ≠ [] then
        { g with inherits := mergeAll m parents (fun _ => some order) g.inherits }
      else
        let stub := stubModel parent m.odooVersion
        { g with
          models := upsert stub (ModelProps.stub ps) g.models
          inherits := mergeStub m stub (fun _ => some order) g.inherits }
  | delegateTo m delegated viaField =>
      let targets := g.resolvedModels delegated m.odooVersion
      if targets ≠ [] then
        { g with
          delegatesTo := mergeAll m (targets.map (·, viaField)) (fun _ => ()) g.delegatesTo }
      else
        let stub := stubModel delegated m.odooVersion
        { g with
          models := upsert stub (ModelProps.stub ps) g.models
          delegatesTo := mergeStub m (stub, viaField) (fun _ => ()) g.delegatesTo }
  | mergeField m f =>
      { g with
        fields := upsert (m.member f.name) (FieldProps.write ps f) g.fields
        fieldBelongsTo := insert (m.member f.name, m) g.fieldBelongsTo }
  | mergeMethod m f =>
      { g with
        methods := upsert (m.member f.name) (MethodProps.write ps f) g.methods
        methodBelongsTo := insert (m.member f.name, m) g.methodBelongsTo }
  | useCoreSymbol mth ref =>
      { g with
        usesCoreSymbol := g.usesCoreSymbol ∪
          ((g.coreSymbolsFor mth.odooVersion ref).map fun cs => (mth, cs)).toFinset }

/-- Send a list of statements. -/
def execAll (ps : List String) (stmts : List CodeStmt) (g : Graph) : Graph :=
  stmts.foldl (exec ps) g

@[simp] theorem execAll_nil (ps : List String) (g : Graph) : execAll ps [] g = g := rfl

@[simp] theorem execAll_cons (ps : List String) (s : CodeStmt) (ss : List CodeStmt) (g : Graph) :
    execAll ps (s :: ss) g = execAll ps ss (exec ps g s) := rfl

theorem execAll_append (ps : List String) (ss ts : List CodeStmt) (g : Graph) :
    execAll ps (ss ++ ts) g = execAll ps ts (execAll ps ss g) := List.foldl_append

end CodeStmt

open CodeStmt in
/-- The statements of the `for idx, parent_name in enumerate(model.inherit)` loop. -/
def inheritStmts (m : ModelInfo) : List CodeStmt :=
  m.inherit.zipIdx.map fun p =>
    if p.1 = m.name then extendSelf m.key p.2 else inheritParent m.key p.1 p.2

open CodeStmt in
/-- The statements of one turn of the `for model in result.models` loop. -/
def modelStmts (m : ModelInfo) : List CodeStmt :=
  mergeModel m :: inheritStmts m
    ++ (m.inherits.map fun p => delegateTo m.key p.1 p.2)
    ++ (m.fields.map fun f => mergeField m.key f)
    ++ m.methods.flatMap fun f =>
        mergeMethod m.key f :: f.coreSymbolRefs.map fun r => useCoreSymbol (m.key.member f.name) r

open CodeStmt in
def parseResultStmts (r : ParseResult) : List CodeStmt :=
  mergeModule r.module :: r.module.depends.map (fun dep => mergeDependency r.module.key dep)
    ++ r.models.flatMap modelStmts

/-- `_write_parse_result(tx, result, profiles)`. -/
def writeParseResult (ps : List String) (r : ParseResult) (g : Graph) : Graph :=
  CodeStmt.execAll ps (parseResultStmts r) g

/-- `Neo4jWriter.write_results`: one transaction a result. -/
def writeResults (ps : List String) (rs : List ParseResult) (g : Graph) : Graph :=
  rs.foldl (fun g r => writeParseResult ps r g) g

/-- A list of results is the concatenation of their statements. -/
theorem writeResults_eq (ps : List String) (rs : List ParseResult) (g : Graph) :
    writeResults ps rs g = CodeStmt.execAll ps (rs.flatMap parseResultStmts) g := by
  induction rs generalizing g with
  | nil => rfl
  | cons r rs ih =>
    rw [List.flatMap_cons, CodeStmt.execAll_append, ← ih]
    rfl

/-! ## `_write_view_parse_result` -/

/-- The nodes `MATCH (v {xmlid: $xmlid, odoo_version: $ver})` finds, by identity. -/
def XmlStore.idsAt {P : Type} (s : XmlStore P) (xmlid ver : String) : Finset Nat :=
  ((s.matching xmlid ver).map (·.id)).toFinset

inductive XmlStmt where
  | mergeView (v : ViewInfo)
  | viewDefinedIn (v : ViewInfo)
  | targetModel (v : ViewInfo)
  | inheritView (v : ViewInfo) (base : String)
  | mergeQWeb (q : QWebInfo)
  | qwebDefinedIn (q : QWebInfo)
  | inheritQWeb (q : QWebInfo) (base : String)
deriving DecidableEq

def ViewInfo.props (v : ViewInfo) : ViewProps where
  name := v.name
  model := v.model
  viewType := v.viewType
  mode := v.mode
  xpathsExprs := v.xpaths.map (·.expr)
  xpathsPositions := v.xpaths.map (·.position)

namespace XmlStmt

def exec (ps : List String) (g : Graph) : XmlStmt → Graph
  | mergeView v =>
      { g with views := g.views.declare ps v.xmlid v.odooVersion v.module v.props }
  | viewDefinedIn v =>
      { g with
        modules := touchModule ⟨v.module, v.odooVersion⟩ g.modules
        viewDefinedIn := g.viewDefinedIn ∪
          (g.views.idsAt v.xmlid v.odooVersion).image fun i => (i, ⟨v.module, v.odooVersion⟩) }
  | targetModel v =>
      { g with
        targetsModel := g.targetsModel ∪
          g.views.idsAt v.xmlid v.odooVersion ×ˢ (g.modelsNamed v.model v.odooVersion).toFinset }
  | inheritView v base => { g with views := g.views.inherit ps v.xmlid v.odooVersion base }
  | mergeQWeb q =>
      { g with qwebs := g.qwebs.declare ps q.xmlid q.odooVersion q.module () }
  | qwebDefinedIn q =>
      { g with
        modules := touchModule ⟨q.module, q.odooVersion⟩ g.modules
        qwebDefinedIn := g.qwebDefinedIn ∪
          (g.qwebs.idsAt q.xmlid q.odooVersion).image fun i => (i, ⟨q.module, q.odooVersion⟩) }
  | inheritQWeb q base => { g with qwebs := g.qwebs.inherit ps q.xmlid q.odooVersion base }

def execAll (ps : List String) (stmts : List XmlStmt) (g : Graph) : Graph :=
  stmts.foldl (exec ps) g

theorem execAll_append (ps : List String) (ss ts : List XmlStmt) (g : Graph) :
    execAll ps (ss ++ ts) g = execAll ps ts (execAll ps ss g) := List.foldl_append

end XmlStmt

open XmlStmt in
/-- The statements of one turn of the `for view in result.views` loop. -/
def viewStmts (v : ViewInfo) : List XmlStmt :=
  mergeView v :: viewDefinedIn v
    :: (if v.model ≠ "" then [targetModel v] else [])
    ++ ((truthy v.inheritXmlid).toList.map fun base => inheritView v base)

open XmlStmt in
def qwebStmts (q : QWebInfo) : List XmlStmt :=
  mergeQWeb q :: qwebDefinedIn q
    :: ((truthy q.inheritXmlid).toList.map fun base => inheritQWeb q base)

def viewParseResultStmts (r : ViewParseResult) : List XmlStmt :=
  r.views.flatMap viewStmts ++ r.qweb.flatMap qwebStmts

/-- `_write_view_parse_result(tx, result, profiles)`. -/
def writeViewParseResult (ps : List String) (r : ViewParseResult) (g : Graph) : Graph :=
  XmlStmt.execAll ps (viewParseResultStmts r) g

/-- `Neo4jWriter.write_view_results`. -/
def writeViewResults (ps : List String) (rs : List ViewParseResult) (g : Graph) : Graph :=
  rs.foldl (fun g r => writeViewParseResult ps r g) g

theorem writeViewResults_eq (ps : List String) (rs : List ViewParseResult) (g : Graph) :
    writeViewResults ps rs g = XmlStmt.execAll ps (rs.flatMap viewParseResultStmts) g := by
  induction rs generalizing g with
  | nil => rfl
  | cons r rs ih =>
    rw [List.flatMap_cons, XmlStmt.execAll_append, ← ih]
    rfl

/-! ## `_write_js_graph_result` -/

inductive JsStmt where
  | mergeComp (c : OWLCompInfo)
  | extendComp (c : OWLCompInfo) (parent : String)
  | bindComp (c : OWLCompInfo) (bound : String)
  | mergePatch (p : JSPatchInfo)
  | patchComp (p : JSPatchInfo)
deriving DecidableEq

def OWLCompInfo.key (c : OWLCompInfo) : OWLCompKey := ⟨c.name, c.module, c.odooVersion⟩

def JSPatchInfo.key (p : JSPatchInfo) : JSPatchKey :=
  ⟨p.target, p.patchName, p.module, p.odooVersion⟩

/-- The key of the placeholder of a missing component. -/
def stubComp (name v : String) : OWLCompKey := ⟨name, unresolvedModule, v⟩

def OWLCompProps.write (ps : List String) (c : OWLCompInfo) (old : Option OWLCompProps) :
    OWLCompProps :=
  { old.getD {} with
    template := c.template, extends' := c.extends', boundModel := c.boundModel,
    filePath := some c.filePath, profile := some (unionProfile (old.bind (·.profile)) ps) }

def OWLCompProps.stub (ps : List String) : Option OWLCompProps → OWLCompProps
  | none => { unresolved := true, profile := some ps }
  | some p => { p with profile := some (unionProfile p.profile ps) }

def JSPatchProps.write (ps : List String) (p : JSPatchInfo) (old : Option JSPatchProps) :
    JSPatchProps where
  era := p.era
  filePath := p.filePath
  profile := some (unionProfile (old.bind (·.profile)) ps)

namespace JsStmt

def exec (ps : List String) (g : Graph) : JsStmt → Graph
  | mergeComp c =>
      { g with
        modules := touchModule ⟨c.module, c.odooVersion⟩ g.modules
        owlComps := upsert c.key (OWLCompProps.write ps c) g.owlComps
        compDefinedIn := insert (c.key, ⟨c.module, c.odooVersion⟩) g.compDefinedIn }
  | extendComp c parent =>
      { g with
        compExtends := g.compExtends ∪
          ((g.compsNamed parent c.odooVersion).map fun k => (c.key, k)).toFinset }
  | bindComp c bound =>
      { g with
        boundTo := g.boundTo ∪
          ((g.modelsNamed bound c.odooVersion).map fun k => (c.key, k)).toFinset }
  | mergePatch p =>
      { g with
        modules := touchModule ⟨p.module, p.odooVersion⟩ g.modules
        jsPatches := upsert p.key (JSPatchProps.write ps p) g.jsPatches
        patchDefinedIn := insert (p.key, ⟨p.module, p.odooVersion⟩) g.patchDefinedIn }
  | patchComp p =>
      let targets := g.resolvedComps p.target p.odooVersion
      if targets ≠ [] then
        { g with patches := mergeAll p.key targets (fun _ => ()) g.patches }
      else
        let stub := stubComp p.target p.odooVersion
        { g with
          owlComps := upsert stub (OWLCompProps.stub ps) g.owlComps
          patches := mergeStub p.key stub (fun _ => ()) g.patches }

def execAll (ps : List String) (stmts : List JsStmt) (g : Graph) : Graph :=
  stmts.foldl (exec ps) g

theorem execAll_append (ps : List String) (ss ts : List JsStmt) (g : Graph) :
    execAll ps (ss ++ ts) g = execAll ps ts (execAll ps ss g) := List.foldl_append

end JsStmt

open JsStmt in
def compStmts (c : OWLCompInfo) : List JsStmt :=
  mergeComp c
    :: ((truthy c.extends').toList.map fun parent => extendComp c parent)
    ++ ((truthy c.boundModel).toList.map fun bound => bindComp c bound)

open JsStmt in
/-- Components first, "so `PATCHES` can resolve against them". -/
def jsGraphResultStmts (r : JSGraphResult) : List JsStmt :=
  r.components.flatMap compStmts ++ r.patches.flatMap fun p => [mergePatch p, patchComp p]

/-- `_write_js_graph_result(tx, result, profiles)`. -/
def writeJsGraphResult (ps : List String) (r : JSGraphResult) (g : Graph) : Graph :=
  JsStmt.execAll ps (jsGraphResultStmts r) g

/-- `Neo4jWriter.write_js_graph_results`. -/
def writeJsGraphResults (ps : List String) (rs : List JSGraphResult) (g : Graph) : Graph :=
  rs.foldl (fun g r => writeJsGraphResult ps r g) g

theorem writeJsGraphResults_eq (ps : List String) (rs : List JSGraphResult) (g : Graph) :
    writeJsGraphResults ps rs g = JsStmt.execAll ps (rs.flatMap jsGraphResultStmts) g := by
  induction rs generalizing g with
  | nil => rfl
  | cons r rs ih =>
    rw [List.flatMap_cons, JsStmt.execAll_append, ← ih]
    rfl

/-! ## `_write_stylesheets_batch` -/

def StylesheetInfo.key (s : StylesheetInfo) : StylesheetKey := ⟨s.filePath, s.module, s.odooVersion⟩

def StylesheetProps.write (ps : List String) (s : StylesheetInfo) (old : Option StylesheetProps) :
    StylesheetProps where
  language := s.language
  selectorCount := s.selectorCount
  variableCount := s.variableCount
  importCount := s.importCount
  mixinCount := s.mixinCount
  profile := some (unionProfile (old.bind (·.profile)) ps)

/-- The node, its module (with the profile union here) and the `DEFINED_IN` edge. -/
def mergeStylesheet (ps : List String) (s : StylesheetInfo) (g : Graph) : Graph :=
  let mod : ModuleKey := ⟨s.module, s.odooVersion⟩
  { g with
    stylesheets := upsert s.key (StylesheetProps.write ps s) g.stylesheets
    modules := upsert mod (ModuleProps.union ps) g.modules
    stylesheetDefinedIn := insert (s.key, mod) g.stylesheetDefinedIn }

/-- `MATCH (tgt:Stylesheet {file_path: $tgt_fp, odoo_version: $v}) MERGE (src)-[:IMPORTS]->(tgt)`. -/
def importStylesheet (s : StylesheetInfo) (target : String) (g : Graph) : Graph :=
  let targets := g.stylesheets.keys.filter fun k =>
    k.filePath = target ∧ k.odooVersion = s.odooVersion
  { g with imports := g.imports ∪ (targets.map fun k => (s.key, k)).toFinset }

def writeStylesheet (ps : List String) (g : Graph) (s : StylesheetInfo) : Graph :=
  s.imports.foldl (fun g target => importStylesheet s target g) (mergeStylesheet ps s g)

/-- `_write_stylesheets_batch(tx, stylesheets, profiles)` -/
def writeStylesheetsBatch (ps : List String) (ss : List StylesheetInfo) (g : Graph) : Graph :=
  ss.foldl (writeStylesheet ps) g

/-- `NEO4J_WRITE_BATCH_SIZE` -/
def neo4jWriteBatchSize : Nat := 500

/-- `_chunked(items, size)`: the slices `items[i : i + size]` for `i` in
    `range(0, len(items), size)`. -/
def chunked {α : Type} (size : Nat) (items : List α) : List (List α) :=
  (List.range ((items.length + size - 1) / size)).map fun i => (items.drop (i * size)).take size

private theorem flatten_slices {α : Type} (size : Nat) (items : List α) (n : Nat) :
    ((List.range n).map fun i => (items.drop (i * size)).take size).flatten =
      items.take (n * size) := by
  induction n with
  | zero => simp
  | succ n ih =>
    rw [List.range_succ, List.map_append, List.flatten_append, ih, Nat.succ_mul, List.take_add]
    simp

/-- Nothing is left out, and nothing is moved. -/
theorem flatten_chunked {α : Type} {size : Nat} (hsize : 0 < size) (items : List α) :
    (chunked size items).flatten = items := by
  rw [chunked, flatten_slices, List.take_of_length_le]
  have hceil := Nat.div_add_mod' (items.length + size - 1) size
  have hlast := Nat.mod_lt (items.length + size - 1) hsize
  omega

theorem mem_of_mem_chunked {α : Type} {size : Nat} {items batch : List α} {a : α}
    (hb : batch ∈ chunked size items) (ha : a ∈ batch) : a ∈ items := by
  obtain ⟨i, -, rfl⟩ := List.mem_map.mp hb
  exact List.mem_of_mem_drop (List.mem_of_mem_take ha)

theorem exists_mem_chunked {α : Type} {size : Nat} (hsize : 0 < size) {items : List α} {a : α}
    (ha : a ∈ items) : ∃ batch ∈ chunked size items, a ∈ batch := by
  obtain ⟨i, hi, rfl⟩ := List.mem_iff_getElem.mp ha
  have hmod := Nat.mod_lt i hsize
  have hdiv := Nat.div_add_mod' i size
  refine ⟨_, List.mem_map.mpr ⟨i / size, List.mem_range.mpr ?_, rfl⟩, ?_⟩
  · rw [Nat.div_lt_iff_lt_mul hsize]
    have hceil := Nat.div_add_mod' (items.length + size - 1) size
    have hlast := Nat.mod_lt (items.length + size - 1) hsize
    omega
  · refine List.mem_iff_getElem.mpr ⟨i % size, ?_, ?_⟩
    · rw [List.length_take, List.length_drop]
      omega
    · rw [List.getElem_take, List.getElem_drop]
      simp only [hdiv]

/-! ## The spec layer and garbage collection -/

def CoreSymbolInfo.key (s : CoreSymbolInfo) : CoreSymbolKey := ⟨s.qualifiedName, s.odooVersion⟩

def CoreSymbolProps.write (s : CoreSymbolInfo) : Option CoreSymbolProps → CoreSymbolProps :=
  fun _ =>
    { kind := s.kind, signature := s.signature, filePath := s.filePath, line := s.line,
      status := s.status, replacementQname := s.replacementQname }

/-- `Neo4jWriter.write_core_symbols`. -/
def writeCoreSymbols (ss : List CoreSymbolInfo) (g : Graph) : Graph :=
  ss.foldl (fun g s =>
    { g with coreSymbols := upsert s.key (CoreSymbolProps.write s) g.coreSymbols }) g

/-- `m.repo = $repo AND m.odoo_version = $version AND NOT m.path IN $live_paths`; a module
    without a `repo` or a `path` compares to `null` and is not matched. -/
def isStaleModule (repo version : String) (livePaths : List String) (k : ModuleKey) :
    Option ModuleProps → Bool
  | some p =>
      k.odooVersion = version && p.repo = some repo &&
        match p.path with
        | some path => path ∉ livePaths
        | none => false
  | none => false

def Graph.isStale (g : Graph) (repo version : String) (livePaths : List String)
    (k : ModuleKey) : Bool := isStaleModule repo version livePaths k (g.modules.lookup k)

/-- `DETACH DELETE` of a set of module nodes. -/
def Graph.detachModules (g : Graph) (dead : ModuleKey → Bool) : Graph :=
  { g with
    modules := eraseWhere dead g.modules
    dependsOn := g.dependsOn.filter fun e => !dead e.1 && !dead e.2
    modelDefinedIn := g.modelDefinedIn.filter fun e => !dead e.2
    viewDefinedIn := g.viewDefinedIn.filter fun e => !dead e.2
    qwebDefinedIn := g.qwebDefinedIn.filter fun e => !dead e.2
    compDefinedIn := g.compDefinedIn.filter fun e => !dead e.2
    patchDefinedIn := g.patchDefinedIn.filter fun e => !dead e.2
    stylesheetDefinedIn := g.stylesheetDefinedIn.filter fun e => !dead e.2 }

/-- `Neo4jWriter.gc_stale_modules(repo, odoo_version, live_paths)`. -/
def gcStaleModules (repo version : String) (livePaths : List String) (g : Graph) : Graph :=
  g.detachModules (g.isStale repo version livePaths)

end OdooSemantic
