import OdooSemantic.Indexer.ModelNodes
import OdooSemantic.Indexer.Pipeline
import OdooSemantic.Lib.MergeList

/-!
# The node tables and the embedding rows under a run's writes

`Module`, `Field` and `Method` nodes are merged by statements that do not look at the graph, so
each of these tables is, after any list of writes, a `mergeList` of letters that are read off
the list. All letters of a run carry one profile array, and then they are absorbing.

An embedding row is written by the one module it belongs to, and what it then is does not
depend on what it was: its letters are constants. The `Model` table does look at the graph;
it was read in `Indexer/ModelNodes.lean`, and what is left to say here is that only the code
writer has a hand in it.

Garbage collection is no merge. It is kept apart throughout.
-/

namespace OdooSemantic

open KeyedStore

variable {Vec : Type}

/-! ## How a statement merges a module -/

inductive ModuleMerge where
  /-- The module's own `MERGE … SET`. -/
  | write (m : ModuleInfo)
  /-- Profile union only: a dependency, the module of a stylesheet. -/
  | union
  /-- A bare `MERGE`. -/
  | touch

def ModuleMerge.apply (ps : List String) : ModuleMerge → Option ModuleProps → ModuleProps
  | write m => ModuleProps.write ps m
  | union => ModuleProps.union ps
  | touch => fun old => old.getD {}

theorem unionProfile_idem (o : Option (List String)) (ps : List String) :
    unionProfile (some (unionProfile o ps)) ps = unionProfile o ps := by
  simp [unionProfile, List.filter_append]

/-- A missing module merges like one without properties. -/
theorem ModuleMerge.apply_eq (ps : List String) (t : ModuleMerge) (o : Option ModuleProps) :
    t.apply ps o = t.apply ps (some (o.getD {})) := by
  cases t <;> cases o <;> rfl

theorem ModuleMerge.absorbing (ps : List String) : Absorbing (ModuleMerge.apply ps) := by
  constructor
  · intro t o
    cases t <;> simp [apply, ModuleProps.write, ModuleProps.union, unionProfile_idem]
  · intro t u o o' he
    rw [apply_eq ps t o, apply_eq ps t o'] at he
    rw [apply_eq ps u o, apply_eq ps u o']
    generalize o.getD {} = p at he ⊢
    generalize o'.getD {} = p' at he ⊢
    have hprofile : unionProfile p.profile ps = unionProfile p'.profile ps := by
      cases t with
      | write m => simpa [apply, ModuleProps.write] using congrArg ModuleProps.profile he
      | union => simpa [apply, ModuleProps.union] using congrArg ModuleProps.profile he
      | touch => exact congrArg (unionProfile ·.profile ps) he
    cases t with
    | write m =>
      cases u <;> simp [apply, ModuleProps.write, ModuleProps.union, unionProfile_idem, hprofile]
    | union =>
      simp only [apply, ModuleProps.union, Option.getD_some, Option.bind_some, hprofile,
        ModuleProps.mk.injEq] at he
      cases u <;>
        simp [apply, ModuleProps.write, ModuleProps.union, unionProfile_idem, hprofile, he]
    | touch =>
      obtain rfl : p = p' := he
      rfl

theorem fieldWrite_absorbing (ps : List String) : Absorbing (FieldProps.write ps) := by
  constructor
  · intro f o
    simp [FieldProps.write, unionProfile_idem]
  · intro f f' o o' he
    have hprofile : unionProfile (o.bind (·.profile)) ps = unionProfile (o'.bind (·.profile)) ps := by
      simpa [FieldProps.write] using congrArg FieldProps.profile he
    simp [FieldProps.write, unionProfile_idem, hprofile]

theorem methodWrite_absorbing (ps : List String) : Absorbing (MethodProps.write ps) := by
  constructor
  · intro f o
    simp [MethodProps.write, unionProfile_idem]
  · intro f f' o o' he
    have hprofile : unionProfile (o.bind (·.profile)) ps = unionProfile (o'.bind (·.profile)) ps := by
      simpa [MethodProps.write] using congrArg MethodProps.profile he
    simp [MethodProps.write, unionProfile_idem, hprofile]

/-! ## The merges of a step -/

namespace CodeStmt

def moduleMerges : CodeStmt → List (ModuleKey × ModuleMerge)
  | mergeModule m => [(m.key, .write m)]
  | mergeDependency m dep => [(⟨dep, m.odooVersion⟩, .union)]
  | mergeModel m => [(m.key.moduleKey, .touch)]
  | _ => []

def fieldMerges : CodeStmt → List (MemberKey × FieldInfo)
  | mergeField m f => [(m.member f.name, f)]
  | _ => []

def methodMerges : CodeStmt → List (MemberKey × MethodInfo)
  | mergeMethod m f => [(m.member f.name, f)]
  | _ => []

variable (ps : List String) (g : Graph) (st : CodeStmt)

theorem modules_exec :
    (exec ps g st).modules = mergeList (ModuleMerge.apply ps) st.moduleMerges g.modules := by
  cases st <;> simp only [exec] <;> first | rfl | (split <;> rfl)

theorem fields_exec :
    (exec ps g st).fields = mergeList (FieldProps.write ps) st.fieldMerges g.fields := by
  cases st <;> simp only [exec] <;> first | rfl | (split <;> rfl)

theorem methods_exec :
    (exec ps g st).methods = mergeList (MethodProps.write ps) st.methodMerges g.methods := by
  cases st <;> simp only [exec] <;> first | rfl | (split <;> rfl)

end CodeStmt

def XmlStmt.moduleMerges : XmlStmt → List (ModuleKey × ModuleMerge)
  | viewDefinedIn v => [(⟨v.module, v.odooVersion⟩, .touch)]
  | qwebDefinedIn q => [(⟨q.module, q.odooVersion⟩, .touch)]
  | _ => []

def JsStmt.moduleMerges : JsStmt → List (ModuleKey × ModuleMerge)
  | mergeComp c => [(⟨c.module, c.odooVersion⟩, .touch)]
  | mergePatch p => [(⟨p.module, p.odooVersion⟩, .touch)]
  | _ => []

theorem XmlStmt.modules_exec (ps : List String) (g : Graph) (st : XmlStmt) :
    (exec ps g st).modules = mergeList (ModuleMerge.apply ps) st.moduleMerges g.modules := by
  cases st <;> rfl

theorem JsStmt.modules_exec (ps : List String) (g : Graph) (st : JsStmt) :
    (exec ps g st).modules = mergeList (ModuleMerge.apply ps) st.moduleMerges g.modules := by
  cases st <;> simp only [exec] <;> first | rfl | (split <;> rfl)

def StylesheetInfo.moduleMerges (s : StylesheetInfo) : List (ModuleKey × ModuleMerge) :=
  [(⟨s.module, s.odooVersion⟩, .union)]

theorem modules_writeStylesheet (ps : List String) (g : Graph) (s : StylesheetInfo) :
    (writeStylesheet ps g s).modules =
      mergeList (ModuleMerge.apply ps) s.moduleMerges g.modules := by
  have himport : ∀ (g : Graph) (target : String),
      (importStylesheet s target g).modules = g.modules := fun _ _ => rfl
  exact foldl_eq_of_exec_eq Graph.modules himport s.imports (mergeStylesheet ps s g)

/-! ## Which modules a result merges -/

theorem mem_moduleMerges_parseResult {r : ParseResult} {k : ModuleKey} {t : ModuleMerge} :
    (k, t) ∈ (parseResultStmts r).flatMap CodeStmt.moduleMerges ↔
      (k = r.module.key ∧ t = .write r.module) ∨
      (∃ dep ∈ r.module.depends, k = ⟨dep, r.module.odooVersion⟩ ∧ t = .union) ∨
      ∃ m ∈ r.models, k = m.key.moduleKey ∧ t = .touch := by
  have hmodel : ∀ m : ModelInfo, (modelStmts m).flatMap CodeStmt.moduleMerges =
      [(m.key.moduleKey, .touch)] := by
    intro m
    have hinherit : (inheritStmts m).flatMap CodeStmt.moduleMerges = [] := by
      rw [List.flatMap_eq_nil_iff]
      intro st hst
      obtain ⟨p, -, rfl⟩ := List.mem_map.mp hst
      split <;> rfl
    simp [modelStmts, hinherit, List.flatMap_append, List.flatMap_map, List.flatMap_assoc,
      CodeStmt.moduleMerges]
  simp [parseResultStmts, List.flatMap_map, List.flatMap_assoc, hmodel, CodeStmt.moduleMerges,
    ModuleInfo.key]

theorem mem_moduleMerges_viewParseResult {r : ViewParseResult} {k : ModuleKey} {t : ModuleMerge}
    (h : (k, t) ∈ (viewParseResultStmts r).flatMap XmlStmt.moduleMerges) :
    t = .touch ∧ ((∃ v ∈ r.views, k = ⟨v.module, v.odooVersion⟩) ∨
      ∃ q ∈ r.qweb, k = ⟨q.module, q.odooVersion⟩) := by
  have hview : ∀ v : ViewInfo, (viewStmts v).flatMap XmlStmt.moduleMerges =
      [(⟨v.module, v.odooVersion⟩, .touch)] := by
    intro v
    by_cases hm : v.model = "" <;> simp [viewStmts, hm, List.flatMap_map, XmlStmt.moduleMerges]
  have hqweb : ∀ q : QWebInfo, (qwebStmts q).flatMap XmlStmt.moduleMerges =
      [(⟨q.module, q.odooVersion⟩, .touch)] := by
    intro q
    simp [qwebStmts, List.flatMap_map, XmlStmt.moduleMerges]
  simp only [viewParseResultStmts, List.flatMap_append, List.flatMap_assoc, hview, hqweb,
    List.mem_append, List.mem_flatMap, List.mem_singleton, Prod.mk.injEq] at h
  grind

theorem mem_moduleMerges_jsGraphResult {r : JSGraphResult} {k : ModuleKey} {t : ModuleMerge}
    (h : (k, t) ∈ (jsGraphResultStmts r).flatMap JsStmt.moduleMerges) :
    t = .touch ∧ ((∃ c ∈ r.components, k = ⟨c.module, c.odooVersion⟩) ∨
      ∃ p ∈ r.patches, k = ⟨p.module, p.odooVersion⟩) := by
  have hcomp : ∀ c : OWLCompInfo, (compStmts c).flatMap JsStmt.moduleMerges =
      [(⟨c.module, c.odooVersion⟩, .touch)] := by
    intro c
    simp [compStmts, List.flatMap_map, JsStmt.moduleMerges]
  simp only [jsGraphResultStmts, List.flatMap_append, List.flatMap_assoc, hcomp, List.flatMap_cons,
    JsStmt.moduleMerges, List.flatMap_nil, List.append_nil, List.mem_append, List.mem_flatMap,
    List.mem_singleton, Prod.mk.injEq] at h
  grind

/-- The tables that only the code writer merges into. -/
def Graph.code (g : Graph) :
    Store ModelKey ModelProps × Store MemberKey FieldProps × Store MemberKey MethodProps :=
  (g.models, g.fields, g.methods)

theorem XmlStmt.code_exec (ps : List String) (g : Graph) (st : XmlStmt) :
    (exec ps g st).code = g.code := by
  cases st <;> rfl

theorem code_writeStylesheet (ps : List String) (g : Graph) (s : StylesheetInfo) :
    (writeStylesheet ps g s).code = g.code := by
  have himport : ∀ (g : Graph) (target : String),
      (importStylesheet s target g).code = g.code := fun _ _ => rfl
  exact foldl_eq_of_exec_eq Graph.code himport s.imports (mergeStylesheet ps s g)

theorem JsStmt.code_exec (ps : List String) (g : Graph) (st : JsStmt) :
    (exec ps g st).code = g.code := by
  cases st <;> simp only [exec] <;> first | rfl | (split <;> rfl)

/-- What the code writer leaves in its tables depends on these tables alone. -/
theorem CodeStmt.code_exec_congr {g h : Graph} (he : g.code = h.code) (ps : List String)
    (st : CodeStmt) : (exec ps g st).code = (exec ps h st).code := by
  obtain ⟨hmodels, hfields, hmethods⟩ : g.models = h.models ∧ g.fields = h.fields ∧
      g.methods = h.methods := by simpa [Graph.code] using he
  have hflags : g.SameFlags h := by
    intro k
    unfold Graph.modelFlag
    rw [hmodels]
  have hexec : (exec ps g st).models = (exec ps h st).models := by
    rw [models_exec, models_exec, hflags.modelMerge, hmodels]
  unfold Graph.code
  rw [hexec, fields_exec, fields_exec, methods_exec, methods_exec, hfields, hmethods]

theorem CodeStmt.code_execAll_congr {g h : Graph} (he : g.code = h.code) (ps : List String)
    (ss : List CodeStmt) : (execAll ps ss g).code = (execAll ps ss h).code := by
  induction ss generalizing g h with
  | nil => exact he
  | cons st ss ih => exact ih (code_exec_congr he ps st)

/-! ## The merges of a transaction -/

namespace WriteStep

/-- The step merges, and with the profile array `ps`; an embedding step writes rows of its own
    module. -/
def Merges (ps : List String) : WriteStep Vec → Prop
  | embed _ module version chunks => ∀ c ∈ chunks, c.module = module ∧ c.odooVersion = version
  | writeResult ps' _ => ps' = ps
  | writeView ps' _ => ps' = ps
  | writeJs ps' _ => ps' = ps
  | writeStylesheets ps' _ => ps' = ps
  | gcStaleModules _ _ _ => False

def codeStmts : WriteStep Vec → List CodeStmt
  | writeResult _ r => parseResultStmts r
  | _ => []

def moduleMerges : WriteStep Vec → List (ModuleKey × ModuleMerge)
  | writeResult _ r => (parseResultStmts r).flatMap CodeStmt.moduleMerges
  | writeView _ r => (viewParseResultStmts r).flatMap XmlStmt.moduleMerges
  | writeJs _ r => (jsGraphResultStmts r).flatMap JsStmt.moduleMerges
  | writeStylesheets _ batch => batch.flatMap StylesheetInfo.moduleMerges
  | _ => []

/-- What the step does to one embedding row. -/
def rowLetter (k : EmbeddingKey) : WriteStep Vec → Option (EmbeddingRow Vec) →
    Option (EmbeddingRow Vec)
  | embed embedder module version chunks, o =>
      if chunks ≠ [] ∧ k.module = module ∧ k.odooVersion = version then
        (writeModuleEmbeddings embedder module version chunks ∅).lookup k
      else o
  | _, o => o

variable {ps : List String} {s : WriteStep Vec}

theorem modules_exec (h : s.Merges ps) (ix : Index Vec) :
    (exec ix s).graph.modules =
      mergeList (ModuleMerge.apply ps) s.moduleMerges ix.graph.modules := by
  cases s with
  | embed embedder module version chunks => rfl
  | writeResult ps' r =>
    obtain rfl : ps' = ps := h
    exact foldl_eq_mergeList _ Graph.modules (fun st _ g => CodeStmt.modules_exec ps' g st) ix.graph
  | writeView ps' r =>
    obtain rfl : ps' = ps := h
    exact foldl_eq_mergeList _ Graph.modules (fun st _ g => XmlStmt.modules_exec ps' g st) ix.graph
  | writeJs ps' r =>
    obtain rfl : ps' = ps := h
    exact foldl_eq_mergeList _ Graph.modules (fun st _ g => JsStmt.modules_exec ps' g st) ix.graph
  | writeStylesheets ps' batch =>
    obtain rfl : ps' = ps := h
    exact foldl_eq_mergeList _ Graph.modules (fun st _ g => modules_writeStylesheet ps' g st) ix.graph
  | gcStaleModules repo version livePaths => exact absurd h (by simp [Merges])

/-- Only the code statements of a step have a hand in `Model`, `Field` and `Method`. -/
theorem code_exec (h : s.Merges ps) (ix : Index Vec) :
    (exec ix s).graph.code = (CodeStmt.execAll ps s.codeStmts ix.graph).code := by
  cases s with
  | embed embedder module version chunks => rfl
  | writeResult ps' r =>
    obtain rfl : ps' = ps := h
    rfl
  | writeView ps' r => exact foldl_eq_of_exec_eq Graph.code (fun g st => XmlStmt.code_exec ps' g st) _ ix.graph
  | writeJs ps' r => exact foldl_eq_of_exec_eq Graph.code (fun g st => JsStmt.code_exec ps' g st) _ ix.graph
  | writeStylesheets ps' batch =>
    exact foldl_eq_of_exec_eq Graph.code (fun g st => code_writeStylesheet ps' g st) _ ix.graph
  | gcStaleModules repo version livePaths => exact absurd h (by simp [Merges])

theorem lookup_embeddings_exec (h : s.Merges ps) (ix : Index Vec) (k : EmbeddingKey) :
    (exec ix s).embeddings.lookup k = s.rowLetter k (ix.embeddings.lookup k) := by
  cases s with
  | embed embedder module version chunks =>
    by_cases hk : k.module = module ∧ k.odooVersion = version
    · by_cases hne : chunks = []
      · simp [exec, rowLetter, hne, writeModuleEmbeddings]
      · rw [rowLetter, if_pos ⟨hne, hk⟩]
        exact lookup_writeModuleEmbeddings_self hne _ _ hk
    · rw [rowLetter, if_neg fun hc => hk hc.2]
      exact lookup_writeModuleEmbeddings_of_ne h _ hk
  | gcStaleModules repo version livePaths => exact absurd h (by simp [Merges])
  | _ => rfl

/-! ## The tables after a list of transactions -/

variable {ss : List (WriteStep Vec)}

theorem modules_execAll (h : ∀ s ∈ ss, s.Merges ps) (ix : Index Vec) :
    (execAll ss ix).graph.modules =
      mergeList (ModuleMerge.apply ps) (ss.flatMap moduleMerges) ix.graph.modules := by
  have hstep : ∀ s ∈ ss, ∀ x : Index Vec, (exec x s).graph.modules =
      mergeList (ModuleMerge.apply ps) s.moduleMerges x.graph.modules :=
    fun s hs x => modules_exec (h s hs) x
  exact foldl_eq_mergeList _ (fun x : Index Vec => x.graph.modules) hstep ix

theorem code_execAll (h : ∀ s ∈ ss, s.Merges ps) (ix : Index Vec) :
    (execAll ss ix).graph.code = (CodeStmt.execAll ps (ss.flatMap codeStmts) ix.graph).code := by
  induction ss generalizing ix with
  | nil => rfl
  | cons s ss ih =>
    rw [execAll_cons, ih fun s' hs' => h s' (List.mem_cons_of_mem _ hs'), List.flatMap_cons,
      CodeStmt.execAll_append]
    exact CodeStmt.code_execAll_congr (code_exec (h s List.mem_cons_self) ix) ps _

theorem code_execAll_congr (h : ∀ s ∈ ss, s.Merges ps) {ix ix' : Index Vec}
    (he : ix.graph.code = ix'.graph.code) :
    (execAll ss ix).graph.code = (execAll ss ix').graph.code := by
  rw [code_execAll h, code_execAll h]
  exact CodeStmt.code_execAll_congr he ps _

theorem lookup_embeddings_execAll (h : ∀ s ∈ ss, s.Merges ps) (ix : Index Vec)
    (k : EmbeddingKey) :
    (execAll ss ix).embeddings.lookup k =
      Replay.run (ss.map (rowLetter k)) (ix.embeddings.lookup k) := by
  induction ss generalizing ix with
  | nil => rfl
  | cons s ss ih =>
    rw [execAll_cons, ih fun s' hs' => h s' (List.mem_cons_of_mem _ hs'),
      lookup_embeddings_exec (h s List.mem_cons_self)]
    rfl

/-- A row letter writes a constant or nothing. -/
theorem rowLetter_replayable (k : EmbeddingKey) (ss : List (WriteStep Vec)) :
    Replay.Replayable (ss.map (rowLetter k)) := by
  have hletter : ∀ s : WriteStep Vec,
      (∀ o, s.rowLetter k o = o) ∨ ∃ row, ∀ o, s.rowLetter k o = row := by
    intro s
    cases s with
    | embed embedder module version chunks =>
      by_cases hk : chunks ≠ [] ∧ k.module = module ∧ k.odooVersion = version
      · exact Or.inr ⟨_, fun o => if_pos hk⟩
      · exact Or.inl fun o => if_neg hk
    | _ => exact Or.inl fun o => rfl
  constructor
  · intro x hx o
    obtain ⟨s, -, rfl⟩ := List.mem_map.mp hx
    cases hletter s with
    | inl hid => rw [hid, hid]
    | inr hrow =>
      obtain ⟨row, hrow⟩ := hrow
      rw [hrow, hrow]
  · intro x hx f hf o o' he
    obtain ⟨s, -, rfl⟩ := List.mem_map.mp hx
    cases hletter s with
    | inl hid =>
      rw [hid, hid] at he
      rw [he]
    | inr hrow =>
      obtain ⟨row, hrow⟩ := hrow
      rw [hrow, hrow]

end WriteStep

/-! ## Garbage collection -/

theorem isStaleModule_iff {repo version : String} {live : List String} {k : ModuleKey}
    {o : Option ModuleProps} : isStaleModule repo version live k o = true ↔
      k.odooVersion = version ∧ ∃ p path, o = some p ∧ p.repo = some repo ∧
        p.path = some path ∧ path ∉ live := by
  cases o with
  | none => simp [isStaleModule]
  | some p => cases hp : p.path <;> simp [isStaleModule, hp, and_assoc]

theorem lookup_modules_gcStaleModules (repo version : String) (live : List String) (g : Graph)
    (k : ModuleKey) :
    (gcStaleModules repo version live g).modules.lookup k =
      if isStaleModule repo version live k (g.modules.lookup k) then none
      else g.modules.lookup k :=
  lookup_eraseWhere _ _ _

/-! ## Replay -/

/-- The same `Module`, `Model`, `Field` and `Method` nodes with the same properties, and the
    same embedding rows. -/
structure Index.SameNodes (ix ix' : Index Vec) : Prop where
  modules : ∀ k, ix.graph.modules.lookup k = ix'.graph.modules.lookup k
  models : ∀ k, ix.graph.models.lookup k = ix'.graph.models.lookup k
  fields : ∀ k, ix.graph.fields.lookup k = ix'.graph.fields.lookup k
  methods : ∀ k, ix.graph.methods.lookup k = ix'.graph.methods.lookup k
  embeddings : ∀ k, ix.embeddings.lookup k = ix'.embeddings.lookup k

namespace CodeStmt

/-- **The `Model` table absorbs a first part of the same run.** -/
theorem lookup_models_replay (ps : List String) (us vs : List CodeStmt) (g : Graph)
    (k : ModelKey) :
    (execAll ps (us ++ vs) (execAll ps us g)).models.lookup k =
      (execAll ps (us ++ vs) g).models.lookup k := by
  rw [execAll_append, execAll_append, lookup_models_execAll, lookup_models_execAll ps k vs,
    lookup_models_secondPass]
  have hflags : (execAll ps us (execAll ps us g)).SameFlags (execAll ps us g) := by
    intro k'
    unfold Graph.modelFlag
    rw [lookup_models_secondPass]
  rw [hflags.modelMerges ps ps]

theorem lookup_fields_replay (ps : List String) (us vs : List CodeStmt) (g : Graph)
    (k : MemberKey) :
    (execAll ps (us ++ vs) (execAll ps us g)).fields.lookup k =
      (execAll ps (us ++ vs) g).fields.lookup k := by
  have hfields : ∀ (ss : List CodeStmt) (g : Graph), (execAll ps ss g).fields =
      mergeList (FieldProps.write ps) (ss.flatMap fieldMerges) g.fields :=
    fun ss g => foldl_eq_mergeList _ Graph.fields (fun st _ g => fields_exec ps g st) g
  rw [hfields, hfields, hfields]
  refine (fieldWrite_absorbing ps).lookup_replay ?_ _ k
  intro u hu
  rw [List.flatMap_append]
  exact List.mem_append_left _ hu

theorem lookup_methods_replay (ps : List String) (us vs : List CodeStmt) (g : Graph)
    (k : MemberKey) :
    (execAll ps (us ++ vs) (execAll ps us g)).methods.lookup k =
      (execAll ps (us ++ vs) g).methods.lookup k := by
  have hmethods : ∀ (ss : List CodeStmt) (g : Graph), (execAll ps ss g).methods =
      mergeList (MethodProps.write ps) (ss.flatMap methodMerges) g.methods :=
    fun ss g => foldl_eq_mergeList _ Graph.methods (fun st _ g => methods_exec ps g st) g
  rw [hmethods, hmethods, hmethods]
  refine (methodWrite_absorbing ps).lookup_replay ?_ _ k
  intro u hu
  rw [List.flatMap_append]
  exact List.mem_append_left _ hu

end CodeStmt

/-- **Merging transactions absorb a first part of themselves.** -/
theorem WriteStep.execAll_replay {ps : List String} {us vs : List (WriteStep Vec)}
    (h : ∀ s ∈ us ++ vs, s.Merges ps) (ix : Index Vec) :
    (execAll (us ++ vs) (execAll us ix)).SameNodes (execAll (us ++ vs) ix) := by
  have hus : ∀ s ∈ us, s.Merges ps := fun s hs => h s (List.mem_append_left _ hs)
  have hcode : (execAll (us ++ vs) (execAll us ix)).graph.code =
      (CodeStmt.execAll ps (us.flatMap codeStmts ++ vs.flatMap codeStmts)
        (CodeStmt.execAll ps (us.flatMap codeStmts) ix.graph)).code := by
    rw [code_execAll h, List.flatMap_append]
    exact CodeStmt.code_execAll_congr (code_execAll hus ix) ps _
  have hcode' : (execAll (us ++ vs) ix).graph.code =
      (CodeStmt.execAll ps (us.flatMap codeStmts ++ vs.flatMap codeStmts) ix.graph).code := by
    rw [code_execAll h, List.flatMap_append]
  simp only [Graph.code, Prod.mk.injEq] at hcode hcode'
  constructor
  · intro k
    rw [modules_execAll h, modules_execAll hus, modules_execAll h]
    refine (ModuleMerge.absorbing ps).lookup_replay ?_ _ k
    intro u hu
    rw [List.flatMap_append]
    exact List.mem_append_left _ hu
  · intro k
    rw [hcode.1, hcode'.1, CodeStmt.lookup_models_replay]
  · intro k
    rw [hcode.2.1, hcode'.2.1, CodeStmt.lookup_fields_replay]
  · intro k
    rw [hcode.2.2, hcode'.2.2, CodeStmt.lookup_methods_replay]
  · intro k
    rw [lookup_embeddings_execAll h, lookup_embeddings_execAll hus, lookup_embeddings_execAll h]
    refine (rowLetter_replayable k _).run_run ?_ _
    intro x hx
    rw [List.map_append]
    exact List.mem_append_left _ hx

end OdooSemantic
