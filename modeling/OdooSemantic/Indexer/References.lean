import OdooSemantic.Graph.XmlLinks
import OdooSemantic.Indexer.ModelNodes
import OdooSemantic.Indexer.Pipeline
import OdooSemantic.Lib.MergeList

/-!
# References — which edges a statement makes

Nine kinds of edge go from a node to a node that another module may own. Each is made by one
kind of statement, which asks for it by the name of its target and gets it if the target is in
the graph at that moment; nothing makes such an edge later, and nothing but a deleted node
takes one away. `Asks` is the first half of that sentence, `Edge.Ready` the second, and
`hasEdge_exec` puts them together for every statement there is.

Only edges to nodes of the source count: an edge to a placeholder, or one that is marked
unresolved, is not an `Edge`.
-/

namespace OdooSemantic

open KeyedStore FlaggedEdges

variable {Vec : Type}

/-! ## Statements of all writers -/

inductive Stmt where
  | code (ps : List String) (st : CodeStmt)
  | xml (ps : List String) (st : XmlStmt)
  | js (ps : List String) (st : JsStmt)
  | stylesheet (ps : List String) (s : StylesheetInfo)
  | gc (repo version : String) (livePaths : List String)
  | coreSymbol (s : CoreSymbolInfo)

namespace Stmt

def exec (g : Graph) : Stmt → Graph
  | code ps st => CodeStmt.exec ps g st
  | xml ps st => XmlStmt.exec ps g st
  | js ps st => JsStmt.exec ps g st
  | stylesheet ps s => writeStylesheet ps g s
  | gc repo version livePaths => gcStaleModules repo version livePaths g
  | coreSymbol s => writeCoreSymbols [s] g

def execAll (ss : List Stmt) (g : Graph) : Graph := ss.foldl exec g

end Stmt

def WriteStep.stmts : WriteStep Vec → List Stmt
  | embed _ _ _ _ => []
  | writeResult ps r => (parseResultStmts r).map (.code ps)
  | writeView ps r => (viewParseResultStmts r).map (.xml ps)
  | writeJs ps r => (jsGraphResultStmts r).map (.js ps)
  | writeStylesheets ps batch => batch.map (.stylesheet ps)
  | gcStaleModules repo version livePaths => [.gc repo version livePaths]

theorem WriteStep.graph_exec (s : WriteStep Vec) (ix : Index Vec) :
    (exec ix s).graph = Stmt.execAll s.stmts ix.graph := by
  cases s with
  | embed embedder module version chunks => rfl
  | writeResult ps r => rw [stmts, Stmt.execAll, List.foldl_map]; rfl
  | writeView ps r => rw [stmts, Stmt.execAll, List.foldl_map]; rfl
  | writeJs ps r => rw [stmts, Stmt.execAll, List.foldl_map]; rfl
  | writeStylesheets ps batch => rw [stmts, Stmt.execAll, List.foldl_map]; rfl
  | gcStaleModules repo version livePaths => rfl

theorem WriteStep.graph_execAll (ss : List (WriteStep Vec)) (ix : Index Vec) :
    (execAll ss ix).graph = Stmt.execAll (ss.flatMap stmts) ix.graph := by
  induction ss generalizing ix with
  | nil => rfl
  | cons s ss ih =>
    rw [execAll_cons, ih, graph_exec, List.flatMap_cons]
    exact List.foldl_append.symm

/-! ## Edges -/

inductive Edge where
  | inherits (source target : ModelKey)
  | delegates (source target : ModelKey) (viaField : String)
  | usesCoreSymbol (source : MemberKey) (target : CoreSymbolKey)
  | targetsModel (xmlid ver : String) (target : ModelKey)
  | inheritsView (xmlid base ver : String)
  | extendsTmpl (xmlid base ver : String)
  | extendsComp (source target : OWLCompKey)
  | boundTo (source : OWLCompKey) (target : ModelKey)
  | patches (source : JSPatchKey) (target : OWLCompKey)
deriving DecidableEq

namespace Edge

/-- The target is no placeholder, where the statement tells them apart. -/
def Real : Edge → Prop
  | inherits _ target => target.module ≠ unresolvedModule
  | delegates _ target _ => target.module ≠ unresolvedModule
  | patches _ target => target.module ≠ unresolvedModule
  | _ => True

/-- The edge is in the graph, and not marked unresolved. -/
def In (g : Graph) : Edge → Prop
  | inherits source target => (source, target, false) ∈ g.inherits
  | delegates source target viaField => (source, (target, viaField), false) ∈ g.delegatesTo
  | usesCoreSymbol source target => (source, target) ∈ g.usesCoreSymbol
  | targetsModel xmlid ver target => ∃ i u, (i, xmlid, ver, u) ∈ g.views.faces ∧
      (i, target) ∈ g.targetsModel
  | inheritsView xmlid base ver => g.views.LinkedTo xmlid base ver
  | extendsTmpl xmlid base ver => g.qwebs.LinkedTo xmlid base ver
  | extendsComp source target => (source, target) ∈ g.compExtends
  | boundTo source target => (source, target) ∈ g.boundTo
  | patches source target => (source, target, false) ∈ g.patches

/-- The statement that asks for the edge finds the target (and, where the source is found by
    key as well, the source). -/
def Ready (g : Graph) : Edge → Prop
  | inherits _ target => target ∈ g.models
  | delegates _ target _ => target ∈ g.models
  | usesCoreSymbol _ target => g.coreSymbolFlagged target = true
  | targetsModel xmlid ver target => g.views.matching xmlid ver ≠ [] ∧ target ∈ g.models
  | inheritsView xmlid base ver => g.views.matching xmlid ver ≠ [] ∧ g.views.resolved base ver ≠ []
  | extendsTmpl xmlid base ver => g.qwebs.matching xmlid ver ≠ [] ∧ g.qwebs.resolved base ver ≠ []
  | extendsComp _ target => target ∈ g.owlComps
  | boundTo _ target => target ∈ g.models
  | patches _ target => target ∈ g.owlComps

end Edge

/-! ## Which edges a statement asks for -/

def CodeStmt.Asks : CodeStmt → Edge → Prop
  | extendSelf m _, .inherits source target => source = m ∧ target.name = m.name ∧
      target.odooVersion = m.odooVersion ∧ target.module ≠ m.module
  | inheritParent m parent _, .inherits source target => source = m ∧ target.name = parent ∧
      target.odooVersion = m.odooVersion
  | delegateTo m delegated viaField, .delegates source target via => source = m ∧
      target.name = delegated ∧ target.odooVersion = m.odooVersion ∧ via = viaField
  | useCoreSymbol mth ref, .usesCoreSymbol source target => source = mth ∧
      target.odooVersion = mth.odooVersion ∧ ('.' :: ref.toList) <:+ target.qualifiedName.toList
  | _, _ => False

def XmlStmt.Asks : XmlStmt → Edge → Prop
  | targetModel v, .targetsModel xmlid ver target => (v.xmlid = xmlid ∧ v.odooVersion = ver) ∧
      target.name = v.model ∧ target.odooVersion = v.odooVersion
  | inheritView v base, .inheritsView xmlid base' ver =>
      v.xmlid = xmlid ∧ base = base' ∧ v.odooVersion = ver
  | inheritQWeb q base, .extendsTmpl xmlid base' ver =>
      q.xmlid = xmlid ∧ base = base' ∧ q.odooVersion = ver
  | _, _ => False

def JsStmt.Asks : JsStmt → Edge → Prop
  | extendComp c parent, .extendsComp source target => source = c.key ∧ target.name = parent ∧
      target.odooVersion = c.odooVersion
  | bindComp c bound, .boundTo source target => source = c.key ∧ target.name = bound ∧
      target.odooVersion = c.odooVersion
  | patchComp p, .patches source target => source = p.key ∧ target.name = p.target ∧
      target.odooVersion = p.odooVersion
  | _, _ => False

def Stmt.Asks : Stmt → Edge → Prop
  | code _ st, e => st.Asks e
  | xml _ st, e => st.Asks e
  | js _ st, e => st.Asks e
  | _, _ => False

/-! ## What the writers keep true -/

/-- Marks are on placeholders only, flagged edges go to placeholders only, and the XML nodes
    have identities of their own. -/
structure Graph.Coherent (g : Graph) : Prop where
  models : ∀ k p, g.models.lookup k = some p → p.unresolved = true → k.module = unresolvedModule
  comps : ∀ k p, g.owlComps.lookup k = some p → p.unresolved = true → k.module = unresolvedModule
  inherits : ∀ a b, (a, b, true) ∈ g.inherits → b.module = unresolvedModule
  delegates : ∀ a b viaField, (a, (b, viaField), true) ∈ g.delegatesTo →
    b.module = unresolvedModule
  patches : ∀ a b, (a, b, true) ∈ g.patches → b.module = unresolvedModule
  views : g.views.Wired
  qwebs : g.qwebs.Wired
  targets : ∀ i k, (i, k) ∈ g.targetsModel → i ∈ g.views.faces.map Prod.fst

theorem Graph.coherent_empty : ({} : Graph).Coherent where
  models := by simp
  comps := by simp
  inherits := by simp
  delegates := by simp
  patches := by simp
  views := XmlStore.wired_empty
  qwebs := XmlStore.wired_empty
  targets := by simp

namespace Graph.Coherent

variable {g : Graph}

/-- A merge that neither sets nor takes off a mark, or one of a placeholder. -/
theorem marks_upsert {K V : Type} [DecidableEq K] {flag : V → Bool} {stub : K → Prop}
    {t : Store K V} (ht : ∀ k p, t.lookup k = some p → flag p = true → stub k) {k' : K}
    {f : Option V → V} (hf : stub k' ∨ ∀ o, flag (f o) = (o.map flag).getD false) (k : K) (p : V)
    (hk : (upsert k' f t).lookup k = some p) (hp : flag p = true) : stub k := by
  by_cases heq : k = k'
  · subst heq
    rcases hf with hstub | hf
    · exact hstub
    · rw [lookup_upsert_self, Option.some.injEq] at hk
      rw [← hk, hf] at hp
      cases hl : t.lookup k with
      | none => simp [hl] at hp
      | some q => exact ht k q hl (by simpa [hl] using hp)
  · rw [lookup_upsert_ne heq] at hk
    exact ht k p hk hp

theorem code (h : g.Coherent) (ps : List String) (st : CodeStmt) :
    (CodeStmt.exec ps g st).Coherent := by
  cases st with
  | mergeModule m => exact { h with }
  | mergeDependency m dep => exact { h with }
  | mergeModel m =>
    refine { h with models := marks_upsert h.models (Or.inr fun o => ?_) }
    cases o <;> rfl
  | extendSelf m order =>
    refine { h with inherits := fun a b hab => ?_ }
    exact h.inherits a b ((mem_mergeAll.mp hab).resolve_right (by simp))
  | inheritParent m parent order =>
    simp only [CodeStmt.exec]
    split
    · refine { h with inherits := fun a b hab => ?_ }
      exact h.inherits a b ((mem_mergeAll.mp hab).resolve_right (by simp))
    · refine { h with
        models := marks_upsert h.models (Or.inl rfl)
        inherits := fun a b hab => ?_ }
      cases mem_mergeStub.mp hab with
      | inl hnew => exact (Prod.mk.inj (Prod.mk.inj hnew).2).1 ▸ rfl
      | inr hold => exact h.inherits a b hold
  | delegateTo m delegated viaField =>
    simp only [CodeStmt.exec]
    split
    · refine { h with delegates := fun a b via hab => ?_ }
      exact h.delegates a b via ((mem_mergeAll.mp hab).resolve_right (by simp))
    · refine { h with
        models := marks_upsert h.models (Or.inl rfl)
        delegates := fun a b via hab => ?_ }
      cases mem_mergeStub.mp hab with
      | inl hnew => exact (Prod.mk.inj (Prod.mk.inj (Prod.mk.inj hnew).2).1).1 ▸ rfl
      | inr hold => exact h.delegates a b via hold
  | mergeField m f => exact { h with }
  | mergeMethod m f => exact { h with }
  | useCoreSymbol mth ref => exact { h with }

/-- The identities of a store are those of a larger one. -/
theorem mem_faces_of_extends {s t : XmlStore ViewProps} (hext : s.Extends t) {i : Nat}
    (hi : i ∈ s.faces.map Prod.fst) : i ∈ t.faces.map Prod.fst := by
  obtain ⟨f, hf, rfl⟩ := List.mem_map.mp hi
  exact List.mem_map_of_mem (hext.mem hf)

theorem xml (h : g.Coherent) (ps : List String) (st : XmlStmt) :
    (XmlStmt.exec ps g st).Coherent := by
  cases st with
  | mergeView v =>
    exact { h with
      views := h.views.declare _ _ _ _ _
      targets := fun i k hik =>
        mem_faces_of_extends (XmlStore.extends_declare _ _ _ _ _ _) (h.targets i k hik) }
  | viewDefinedIn v => exact { h with }
  | targetModel v =>
    refine { h with targets := fun i k hik => ?_ }
    cases Finset.mem_union.mp hik with
    | inl hold => exact h.targets i k hold
    | inr hnew =>
      have hi := (Finset.mem_product.mp hnew).1
      unfold XmlStore.idsAt at hi
      rw [List.mem_toFinset, XmlStore.ids_matching] at hi
      obtain ⟨u, hf⟩ := hi
      exact List.mem_map_of_mem hf
  | inheritView v base =>
    exact { h with
      views := h.views.inherit _ _ _ _
      targets := fun i k hik =>
        mem_faces_of_extends (XmlStore.extends_inherit _ _ _ _ _) (h.targets i k hik) }
  | mergeQWeb q => exact { h with qwebs := h.qwebs.declare _ _ _ _ _ }
  | qwebDefinedIn q => exact { h with }
  | inheritQWeb q base => exact { h with qwebs := h.qwebs.inherit _ _ _ _ }

theorem js (h : g.Coherent) (ps : List String) (st : JsStmt) : (JsStmt.exec ps g st).Coherent := by
  cases st with
  | mergeComp c =>
    refine { h with comps := marks_upsert h.comps (Or.inr fun o => ?_) }
    cases o <;> rfl
  | extendComp c parent => exact { h with }
  | bindComp c bound => exact { h with }
  | mergePatch p => exact { h with }
  | patchComp p =>
    simp only [JsStmt.exec]
    split
    · refine { h with patches := fun a b hab => ?_ }
      exact h.patches a b ((mem_mergeAll.mp hab).resolve_right (by simp))
    · refine { h with
        comps := marks_upsert h.comps (Or.inl rfl)
        patches := fun a b hab => ?_ }
      cases mem_mergeStub.mp hab with
      | inl hnew => exact (Prod.mk.inj (Prod.mk.inj hnew).2).1 ▸ rfl
      | inr hold => exact h.patches a b hold

end Graph.Coherent

/-- What the reference edges and their ends are made of. -/
def Graph.trunk (g : Graph) : Graph where
  models := g.models
  views := g.views
  qwebs := g.qwebs
  owlComps := g.owlComps
  coreSymbols := g.coreSymbols
  inherits := g.inherits
  delegatesTo := g.delegatesTo
  usesCoreSymbol := g.usesCoreSymbol
  targetsModel := g.targetsModel
  compExtends := g.compExtends
  boundTo := g.boundTo
  patches := g.patches

theorem Graph.Coherent.of_trunk {g h : Graph} (ht : h.trunk = g.trunk) (hg : g.Coherent) :
    h.Coherent := by
  have hg' : g.trunk.Coherent := { hg with }
  have hh : h.trunk.Coherent := ht ▸ hg'
  exact { hh with }

theorem Edge.in_of_trunk {g h : Graph} (ht : h.trunk = g.trunk) (e : Edge) : e.In h ↔ e.In g := by
  have htrunk : ∀ g : Graph, e.In g.trunk ↔ e.In g := by
    intro g
    cases e <;> exact Iff.rfl
  rw [← htrunk h, ht, htrunk g]

theorem trunk_writeStylesheet (ps : List String) (g : Graph) (s : StylesheetInfo) :
    (writeStylesheet ps g s).trunk = g.trunk := by
  have himport : ∀ (g : Graph) (target : String), (importStylesheet s target g).trunk = g.trunk :=
    fun _ _ => rfl
  exact foldl_eq_of_exec_eq Graph.trunk himport s.imports (mergeStylesheet ps s g)

theorem Graph.Coherent.exec {g : Graph} (h : g.Coherent) (s : Stmt) : (s.exec g).Coherent := by
  cases s with
  | code ps st => exact h.code ps st
  | xml ps st => exact h.xml ps st
  | js ps st => exact h.js ps st
  | stylesheet ps s => exact h.of_trunk (trunk_writeStylesheet ps g s)
  | gc repo version livePaths => exact { h with }
  | coreSymbol s => exact { h with }

/-! ## One statement -/

section Edges

variable {g : Graph}

theorem mem_resolvedModels_of_real (h : g.Coherent) {k : ModelKey} (hk : k.module ≠ unresolvedModule)
    (n v : String) :
    k ∈ g.resolvedModels n v ↔ k ∈ g.models ∧ k.name = n ∧ k.odooVersion = v := by
  unfold Graph.resolvedModels Graph.modelsNamed
  simp only [List.mem_filter, AList.mem_keys, decide_eq_true_eq, Bool.not_eq_true']
  refine and_iff_left_of_imp fun hmem => ?_
  unfold Graph.modelUnresolved
  split
  · rename_i p hp
    exact Bool.eq_false_iff.mpr fun hu => hk (h.models k p hp hu)
  · rfl

theorem mem_resolvedComps_of_real (h : g.Coherent) {k : OWLCompKey}
    (hk : k.module ≠ unresolvedModule) (n v : String) :
    k ∈ g.resolvedComps n v ↔ k ∈ g.owlComps ∧ k.name = n ∧ k.odooVersion = v := by
  unfold Graph.resolvedComps Graph.compsNamed
  simp only [List.mem_filter, AList.mem_keys, decide_eq_true_eq, Bool.not_eq_true']
  refine and_iff_left_of_imp fun hmem => ?_
  unfold Graph.compUnresolved
  split
  · rename_i p hp
    exact Bool.eq_false_iff.mpr fun hu => hk (h.comps k p hp hu)
  · rfl

theorem CodeStmt.in_exec (h : g.Coherent) {e : Edge} (hreal : e.Real) (ps : List String)
    (st : CodeStmt) : e.In (exec ps g st) ↔ e.In g ∨ (st.Asks e ∧ e.Ready g) := by
  cases st with
  | mergeModule m => cases e <;> simp [exec, Edge.In, Asks]
  | mergeDependency m dep => cases e <;> simp [exec, Edge.In, Asks]
  | mergeModel m => cases e <;> simp [exec, Edge.In, Asks]
  | extendSelf m order =>
    cases e with
    | inherits a k =>
      have hflag : (m, k, true) ∉ g.inherits := fun hk => hreal (h.inherits m k hk)
      simp only [exec, Edge.In, Asks, Edge.Ready, mem_mergeAll, List.mem_filter,
        Graph.mem_modelsNamed, decide_eq_true_eq, hflag]
      tauto
    | _ => simp [exec, Edge.In, Asks]
  | inheritParent m parent order =>
    cases e with
    | inherits a k =>
      have hflag : (m, k, true) ∉ g.inherits := fun hk => hreal (h.inherits m k hk)
      have hparents := mem_resolvedModels_of_real h hreal parent m.odooVersion
      simp only [exec]
      split
      · simp only [Edge.In, Asks, Edge.Ready, mem_mergeAll, hparents, hflag]
        tauto
      · rename_i hnil
        rw [not_not] at hnil
        rw [hnil] at hparents
        simp only [Edge.In, Asks, Edge.Ready, mem_mergeStub, Prod.mk.injEq, Bool.false_eq_true]
        simp only [List.not_mem_nil, false_iff] at hparents
        tauto
    | _ =>
      simp only [exec]
      split <;> simp [Edge.In, Asks]
  | delegateTo m delegated viaField =>
    cases e with
    | delegates a k via =>
      have hflag : (m, (k, via), true) ∉ g.delegatesTo := fun hk => hreal (h.delegates m k via hk)
      have htargets := mem_resolvedModels_of_real h hreal delegated m.odooVersion
      simp only [exec]
      split
      · simp only [Edge.In, Asks, Edge.Ready, mem_mergeAll, List.mem_map, Prod.mk.injEq, hflag]
        constructor
        · intro hcase
          rcases hcase with hold | ⟨rfl, ⟨k', hk', rfl, rfl⟩, -, -⟩
          · exact Or.inl hold
          · obtain ⟨hmem, hn, hv⟩ := htargets.mp hk'
            exact Or.inr ⟨⟨rfl, hn, hv, rfl⟩, hmem⟩
        · intro hcase
          rcases hcase with hold | ⟨⟨rfl, hn, hv, rfl⟩, hmem⟩
          · exact Or.inl hold
          · exact Or.inr ⟨rfl, ⟨k, htargets.mpr ⟨hmem, hn, hv⟩, rfl, rfl⟩, trivial, not_false⟩
      · rename_i hnil
        rw [not_not] at hnil
        rw [hnil] at htargets
        simp only [Edge.In, Asks, Edge.Ready, mem_mergeStub, Prod.mk.injEq, Bool.false_eq_true]
        simp only [List.not_mem_nil, false_iff] at htargets
        tauto
    | _ =>
      simp only [exec]
      split <;> simp [Edge.In, Asks]
  | mergeField m f => cases e <;> simp [exec, Edge.In, Asks]
  | mergeMethod m f => cases e <;> simp [exec, Edge.In, Asks]
  | useCoreSymbol mth ref =>
    cases e with
    | usesCoreSymbol a cs =>
      have hkey : g.coreSymbolFlagged cs = true → cs ∈ g.coreSymbols := by
        intro hf
        unfold Graph.coreSymbolFlagged at hf
        split at hf
        · rename_i p hp
          exact AList.lookup_isSome.mp (by rw [hp]; rfl)
        · exact absurd hf (by simp)
      simp only [exec, Edge.In, Asks, Edge.Ready, Graph.coreSymbolsFor, Finset.mem_union,
        List.mem_toFinset, List.mem_map, List.mem_filter, decide_eq_true_eq, Prod.mk.injEq]
      refine or_congr_right ?_
      constructor
      · intro hex
        obtain ⟨cs', ⟨-, hv, hsuffix, hf⟩, rfl, rfl⟩ := hex
        exact ⟨⟨rfl, hv, hsuffix⟩, hf⟩
      · intro hasks
        obtain ⟨⟨rfl, hv, hsuffix⟩, hf⟩ := hasks
        exact ⟨cs, ⟨hkey hf, hv, hsuffix, hf⟩, rfl, rfl⟩
    | _ => simp [exec, Edge.In, Asks]

theorem JsStmt.in_exec (h : g.Coherent) {e : Edge} (hreal : e.Real) (ps : List String)
    (st : JsStmt) : e.In (exec ps g st) ↔ e.In g ∨ (st.Asks e ∧ e.Ready g) := by
  have hcomps : ∀ (k : OWLCompKey) (n v : String),
      k ∈ g.compsNamed n v ↔ k ∈ g.owlComps ∧ k.name = n ∧ k.odooVersion = v := by
    intro k n v
    simp [Graph.compsNamed, AList.mem_keys]
  cases st with
  | mergeComp c => cases e <;> simp [exec, Edge.In, Asks]
  | extendComp c parent =>
    cases e with
    | extendsComp a k =>
      simp only [exec, Edge.In, Asks, Edge.Ready, Finset.mem_union, List.mem_toFinset, List.mem_map,
        hcomps, Prod.mk.injEq]
      grind
    | _ => simp [exec, Edge.In, Asks]
  | bindComp c bound =>
    cases e with
    | boundTo a k =>
      simp only [exec, Edge.In, Asks, Edge.Ready, Finset.mem_union, List.mem_toFinset, List.mem_map,
        Graph.mem_modelsNamed, Prod.mk.injEq]
      grind
    | _ => simp [exec, Edge.In, Asks]
  | mergePatch p => cases e <;> simp [exec, Edge.In, Asks]
  | patchComp p =>
    cases e with
    | patches a k =>
      have hflag : (p.key, k, true) ∉ g.patches := fun hk => hreal (h.patches p.key k hk)
      have htargets := mem_resolvedComps_of_real h hreal p.target p.odooVersion
      simp only [exec]
      split
      · simp only [Edge.In, Asks, Edge.Ready, mem_mergeAll, htargets, hflag]
        tauto
      · rename_i hnil
        rw [not_not] at hnil
        rw [hnil] at htargets
        simp only [Edge.In, Asks, Edge.Ready, mem_mergeStub, Prod.mk.injEq, Bool.false_eq_true]
        simp only [List.not_mem_nil, false_iff] at htargets
        tauto
    | _ =>
      simp only [exec]
      split <;> simp [Edge.In, Asks]

/-- An edge to a model from a view, under a larger list of view nodes. -/
theorem targetsModel_of_extends (h : g.Coherent) {t : XmlStore ViewProps} (hext : g.views.Extends t)
    (x v : String) (k : ModelKey) :
    (∃ i u, (i, x, v, u) ∈ t.faces ∧ (i, k) ∈ g.targetsModel) ↔
      ∃ i u, (i, x, v, u) ∈ g.views.faces ∧ (i, k) ∈ g.targetsModel := by
  constructor
  · intro hex
    obtain ⟨i, u, hf, hik⟩ := hex
    exact ⟨i, u, hext.mem_of_mem hf (h.targets i k hik), hik⟩
  · intro hex
    obtain ⟨i, u, hf, hik⟩ := hex
    exact ⟨i, u, hext.mem hf, hik⟩

theorem XmlStmt.in_exec (h : g.Coherent) (e : Edge) (ps : List String) (st : XmlStmt) :
    e.In (exec ps g st) ↔ e.In g ∨ (st.Asks e ∧ e.Ready g) := by
  cases st with
  | mergeView v =>
    cases e with
    | targetsModel x ver k =>
      refine (targetsModel_of_extends h (XmlStore.extends_declare _ _ _ _ _ _) x ver k).trans ?_
      simp [Asks, Edge.In]
    | inheritsView x base ver =>
      refine (XmlStore.linkedTo_declare h.views _ _ _ _ _ x base ver).trans ?_
      simp [Asks, Edge.In]
    | _ => simp [exec, Edge.In, Asks]
  | viewDefinedIn v => cases e <;> simp [exec, Edge.In, Asks]
  | targetModel v =>
    cases e with
    | targetsModel x ver k =>
      simp only [exec, Edge.In, Asks, Edge.Ready, Finset.mem_union, Finset.mem_product,
        XmlStore.idsAt, List.mem_toFinset, XmlStore.ids_matching, Graph.mem_modelsNamed,
        XmlStore.matching_ne_nil_iff]
      constructor
      · intro hex
        obtain ⟨i, u, hf, hold | ⟨⟨u', hf'⟩, hk, hn, hv⟩⟩ := hex
        · exact Or.inl ⟨i, u, hf, hold⟩
        · obtain ⟨rfl, rfl, -⟩ := h.views.face_eq hf hf'
          exact Or.inr ⟨⟨⟨rfl, rfl⟩, hn, hv⟩, ⟨i, u, hf⟩, hk⟩
      · intro hcase
        rcases hcase with ⟨i, u, hf, hold⟩ | ⟨⟨⟨rfl, rfl⟩, hn, hv⟩, ⟨i, u, hf⟩, hk⟩
        · exact ⟨i, u, hf, Or.inl hold⟩
        · exact ⟨i, u, hf, Or.inr ⟨⟨u, hf⟩, hk, hn, hv⟩⟩
    | _ => simp [exec, Edge.In, Asks]
  | inheritView v base =>
    cases e with
    | targetsModel x ver k =>
      refine (targetsModel_of_extends h (XmlStore.extends_inherit _ _ _ _ _) x ver k).trans ?_
      simp [Asks, Edge.In]
    | inheritsView x base' ver => exact XmlStore.linkedTo_inherit h.views _ _ _ _ x base' ver
    | _ => simp [exec, Edge.In, Asks]
  | mergeQWeb q =>
    cases e with
    | extendsTmpl x base ver =>
      refine (XmlStore.linkedTo_declare h.qwebs _ _ _ _ _ x base ver).trans ?_
      simp [Asks, Edge.In]
    | _ => simp [exec, Edge.In, Asks]
  | qwebDefinedIn q => cases e <;> simp [exec, Edge.In, Asks]
  | inheritQWeb q base =>
    cases e with
    | extendsTmpl x base' ver => exact XmlStore.linkedTo_inherit h.qwebs _ _ _ _ x base' ver
    | _ => simp [exec, Edge.In, Asks]

/-- **What one statement does to one edge.** -/
theorem Stmt.in_exec (h : g.Coherent) {e : Edge} (hreal : e.Real) (s : Stmt) :
    e.In (s.exec g) ↔ e.In g ∨ (s.Asks e ∧ e.Ready g) := by
  cases s with
  | code ps st => exact CodeStmt.in_exec h hreal ps st
  | xml ps st => exact XmlStmt.in_exec h e ps st
  | js ps st => exact JsStmt.in_exec h hreal ps st
  | stylesheet ps s =>
    refine (Edge.in_of_trunk (trunk_writeStylesheet ps g s) e).trans ?_
    simp [Asks]
  | gc repo version livePaths =>
    have htrunk : (exec g (.gc repo version livePaths)).trunk = g.trunk := rfl
    refine (Edge.in_of_trunk htrunk e).trans ?_
    simp [Asks]
  | coreSymbol s => cases e <;> simp [exec, writeCoreSymbols, Edge.In, Asks]

/-- **And a list of them**: an edge is there if it was, or some statement asked for it when its
    target was in the graph. -/
theorem Stmt.in_execAll {ss : List Stmt} (h : g.Coherent) {e : Edge} (hreal : e.Real) :
    e.In (execAll ss g) ↔ e.In g ∨
      ∃ us s vs, ss = us ++ s :: vs ∧ s.Asks e ∧ e.Ready (execAll us g) := by
  have hstep : ∀ s ∈ ss, ∀ g : Graph, g.Coherent →
      (e.In (s.exec g) ↔ e.In g ∨ (s.Asks e ∧ e.Ready g)) :=
    fun s _ g hg => in_exec hg hreal s
  exact foldl_iff_at (P := fun g => e.In g) (fun s _ hg => hg.exec s) hstep h

end Edges

end OdooSemantic
