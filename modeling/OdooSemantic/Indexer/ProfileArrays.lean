import OdooSemantic.Graph.XmlProfiles
import OdooSemantic.Indexer.NodeTables
import OdooSemantic.Proof.ViewIdentity

/-!
# Whose profiles are in a node's array

The filter of the query tools is `$profile_name IN node.profile`, and every statement that
merges a node of the source takes the union of that array with the profiles of its run. So
the array of a node holds what the transactions brought that have merged it: for the keyed
labels any of them, for the XML labels those that `Graph/XmlProfiles.lean` singles out, and
for a `Module` those since it was last garbage collected.

`Tagged` says this of a list of transactions without looking at a graph, except for the one
question that garbage collection asks.
-/

namespace OdooSemantic

open KeyedStore FlaggedEdges XmlStore

variable {Vec : Type}

/-! ## Nodes of the source -/

/-- A node as a query names it: by its key, an XML node by what it is looked up by. -/
inductive NodeRef where
  | module (k : ModuleKey)
  | model (k : ModelKey)
  | field (k : MemberKey)
  | method (k : MemberKey)
  | comp (k : OWLCompKey)
  | patch (k : JSPatchKey)
  | view (xmlid ver : String)
  | qweb (xmlid ver : String)
deriving DecidableEq

/-- Not a placeholder key. -/
def NodeRef.Real : NodeRef → Prop
  | model k => k.module ≠ unresolvedModule
  | comp k => k.module ≠ unresolvedModule
  | _ => True

/-- Addressed by its `MERGE` key. -/
def NodeRef.Keyed : NodeRef → Prop
  | view _ _ => False
  | qweb _ _ => False
  | _ => True

/-- The profile array of the record under a key, empty where there is none. -/
def profilesOf {V : Type} (profile : V → Option (List String)) (o : Option V) : List String :=
  (o.bind profile).getD []

/-- The profile array of a node. -/
def Graph.profiles (g : Graph) : NodeRef → List String
  | .module k => profilesOf ModuleProps.profile (g.modules.lookup k)
  | .model k => profilesOf ModelProps.profile (g.models.lookup k)
  | .field k => profilesOf FieldProps.profile (g.fields.lookup k)
  | .method k => profilesOf MethodProps.profile (g.methods.lookup k)
  | .comp k => profilesOf OWLCompProps.profile (g.owlComps.lookup k)
  | .patch k => profilesOf JSPatchProps.profile (g.jsPatches.lookup k)
  | .view xmlid ver => g.views.profilesAt xmlid ver
  | .qweb xmlid ver => g.qwebs.profilesAt xmlid ver

/-! ## One merge -/

/-- A merge that adds `ps` to the array of what it merges. -/
def Tags {V : Type} (profile : V → Option (List String)) (ps : List String) (f : Option V → V) :
    Prop :=
  ∀ o p, p ∈ (profile (f o)).getD [] ↔ p ∈ profilesOf profile o ∨ p ∈ ps

theorem Tags.of_union {V : Type} {profile : V → Option (List String)} {ps : List String}
    {f : Option V → V} (h : ∀ o, profile (f o) = some (unionProfile (o.bind profile) ps)) :
    Tags profile ps f := by
  intro o p
  rw [h, Option.getD_some, mem_unionProfile, profilesOf]

theorem mem_profilesOf_upsert {K V : Type} [DecidableEq K] {profile : V → Option (List String)}
    {ps : List String} {f : Option V → V} (h : Tags profile ps f) (k k' : K) (t : Store K V)
    (p : String) :
    p ∈ profilesOf profile ((upsert k f t).lookup k') ↔
      p ∈ profilesOf profile (t.lookup k') ∨ (k' = k ∧ p ∈ ps) := by
  rw [lookup_upsert]
  split
  · rename_i hk
    subst hk
    rw [profilesOf, Option.bind_some, h]
    simp
  · rename_i hk
    exact (or_iff_left fun hc => hk hc.1).symm

variable (ps : List String)

theorem tags_moduleWrite (m : ModuleInfo) : Tags ModuleProps.profile ps (ModuleProps.write ps m) :=
  .of_union fun _ => rfl

theorem tags_moduleUnion : Tags ModuleProps.profile ps (ModuleProps.union ps) :=
  .of_union fun _ => rfl

/-- A bare `MERGE` adds nothing. -/
theorem tags_moduleTouch : Tags ModuleProps.profile [] fun old => old.getD {} := by
  intro o p
  cases o <;> simp [profilesOf]

theorem profile_modelWrite (m : ModelInfo) (o : Option ModelProps) :
    (ModelProps.write ps m o).profile = some (unionProfile (o.bind ModelProps.profile) ps) := by
  cases o <;> simp [ModelProps.write, unionProfile]

theorem profile_modelStub (o : Option ModelProps) :
    (ModelProps.stub ps o).profile = some (unionProfile (o.bind ModelProps.profile) ps) := by
  cases o <;> simp [ModelProps.stub, unionProfile]

theorem profile_compStub (o : Option OWLCompProps) :
    (OWLCompProps.stub ps o).profile = some (unionProfile (o.bind OWLCompProps.profile) ps) := by
  cases o <;> simp [OWLCompProps.stub, unionProfile]

theorem tags_modelWrite (m : ModelInfo) : Tags ModelProps.profile ps (ModelProps.write ps m) :=
  .of_union (profile_modelWrite ps m)

theorem tags_modelStub : Tags ModelProps.profile ps (ModelProps.stub ps) :=
  .of_union (profile_modelStub ps)

theorem tags_compStub : Tags OWLCompProps.profile ps (OWLCompProps.stub ps) :=
  .of_union (profile_compStub ps)

theorem tags_fieldWrite (f : FieldInfo) : Tags FieldProps.profile ps (FieldProps.write ps f) :=
  .of_union fun _ => rfl

theorem tags_methodWrite (f : MethodInfo) : Tags MethodProps.profile ps (MethodProps.write ps f) :=
  .of_union fun _ => rfl

theorem tags_compWrite (c : OWLCompInfo) :
    Tags OWLCompProps.profile ps (OWLCompProps.write ps c) := .of_union fun _ => rfl

theorem tags_patchWrite (q : JSPatchInfo) :
    Tags JSPatchProps.profile ps (JSPatchProps.write ps q) := .of_union fun _ => rfl

/-! ## One statement -/

/-- The nodes of the source whose array a statement extends. -/
def CodeStmt.tags : CodeStmt → List NodeRef
  | mergeModule m => [.module m.key]
  | mergeDependency m dep => [.module ⟨dep, m.odooVersion⟩]
  | mergeModel m => [.model m.key]
  | mergeField m f => [.field (m.member f.name)]
  | mergeMethod m f => [.method (m.member f.name)]
  | _ => []

def JsStmt.tags : JsStmt → List NodeRef
  | mergeComp c => [.comp c.key]
  | mergePatch p => [.patch p.key]
  | _ => []

def StylesheetInfo.tags (s : StylesheetInfo) : List NodeRef := [.module ⟨s.module, s.odooVersion⟩]

def XmlStmt.tags : XmlStmt → List NodeRef
  | mergeView v => [.view v.xmlid v.odooVersion]
  | mergeQWeb q => [.qweb q.xmlid q.odooVersion]
  | _ => []

/-- The node that a statement falls back on when it finds nothing to link to. -/
def CodeStmt.references : CodeStmt → List NodeRef
  | inheritParent m parent _ => [.model (stubModel parent m.odooVersion)]
  | delegateTo m delegated _ => [.model (stubModel delegated m.odooVersion)]
  | _ => []

def JsStmt.references : JsStmt → List NodeRef
  | patchComp p => [.comp (stubComp p.target p.odooVersion)]
  | _ => []

def XmlStmt.references : XmlStmt → List NodeRef
  | inheritView v base => [.view base v.odooVersion]
  | inheritQWeb q base => [.qweb base q.odooVersion]
  | _ => []

/-- There is nothing resolved by the name of the node: `rec is None`. -/
def Graph.Missing (g : Graph) : NodeRef → Prop
  | .model k => g.resolvedModels k.name k.odooVersion = []
  | .comp k => g.resolvedComps k.name k.odooVersion = []
  | .view xmlid ver => g.views.resolved xmlid ver = []
  | .qweb xmlid ver => g.qwebs.resolved xmlid ver = []
  | _ => False

theorem CodeStmt.not_real_of_mem_references {st : CodeStmt} {ref : NodeRef}
    (h : ref ∈ st.references) : ¬ ref.Real := by
  cases st with
  | inheritParent m parent order => rw [List.mem_singleton.mp h]; exact fun hreal => hreal rfl
  | delegateTo m delegated via => rw [List.mem_singleton.mp h]; exact fun hreal => hreal rfl
  | _ => exact absurd h (by simp [references])

theorem JsStmt.not_real_of_mem_references {st : JsStmt} {ref : NodeRef}
    (h : ref ∈ st.references) : ¬ ref.Real := by
  cases st with
  | patchComp q => rw [List.mem_singleton.mp h]; exact fun hreal => hreal rfl
  | _ => exact absurd h (by simp [references])

section Statements

variable {ps : List String} {ref : NodeRef} {p : String}

/-- **What a code statement does to the array of a node**, placeholders included. -/
theorem CodeStmt.mem_profiles_exec_iff (g : Graph) (st : CodeStmt) :
    p ∈ (exec ps g st).profiles ref ↔
      p ∈ g.profiles ref ∨ ((ref ∈ st.tags ∨ (ref ∈ st.references ∧ g.Missing ref)) ∧ p ∈ ps) := by
  cases st with
  | mergeModule m =>
    cases ref <;> simp [exec, Graph.profiles, tags, references,
      mem_profilesOf_upsert (tags_moduleWrite ps m)]
  | mergeDependency m dep =>
    cases ref <;> simp [exec, Graph.profiles, tags, references,
      mem_profilesOf_upsert (tags_moduleUnion ps)]
  | mergeModel m =>
    cases ref <;> simp [exec, Graph.profiles, tags, references, touchModule,
      mem_profilesOf_upsert tags_moduleTouch, mem_profilesOf_upsert (tags_modelWrite ps m)]
  | extendSelf m order => cases ref <;> simp [exec, Graph.profiles, tags, references]
  | inheritParent m parent order =>
    simp only [exec]
    split
    · rename_i hfound
      cases ref <;> simp [Graph.profiles, tags, references]
      rename_i k
      intro hk hmissing
      subst hk
      exact absurd hmissing hfound
    · rename_i hnone
      rw [not_not] at hnone
      cases ref <;> simp [Graph.profiles, tags, references, mem_profilesOf_upsert (tags_modelStub ps)]
      rename_i k
      refine or_congr_right (and_congr_left fun _ => ⟨fun hk => ⟨hk, ?_⟩, fun hk => hk.1⟩)
      subst hk
      exact hnone
  | delegateTo m delegated viaField =>
    simp only [exec]
    split
    · rename_i hfound
      cases ref <;> simp [Graph.profiles, tags, references]
      rename_i k
      intro hk hmissing
      subst hk
      exact absurd hmissing hfound
    · rename_i hnone
      rw [not_not] at hnone
      cases ref <;> simp [Graph.profiles, tags, references, mem_profilesOf_upsert (tags_modelStub ps)]
      rename_i k
      refine or_congr_right (and_congr_left fun _ => ⟨fun hk => ⟨hk, ?_⟩, fun hk => hk.1⟩)
      subst hk
      exact hnone
  | mergeField m f =>
    cases ref <;> simp [exec, Graph.profiles, tags, references,
      mem_profilesOf_upsert (tags_fieldWrite ps f)]
  | mergeMethod m f =>
    cases ref <;> simp [exec, Graph.profiles, tags, references,
      mem_profilesOf_upsert (tags_methodWrite ps f)]
  | useCoreSymbol mth r => cases ref <;> simp [exec, Graph.profiles, tags, references]

theorem JsStmt.mem_profiles_exec_iff (g : Graph) (st : JsStmt) :
    p ∈ (exec ps g st).profiles ref ↔
      p ∈ g.profiles ref ∨ ((ref ∈ st.tags ∨ (ref ∈ st.references ∧ g.Missing ref)) ∧ p ∈ ps) := by
  cases st with
  | mergeComp c =>
    cases ref <;> simp [exec, Graph.profiles, tags, references, touchModule,
      mem_profilesOf_upsert tags_moduleTouch, mem_profilesOf_upsert (tags_compWrite ps c)]
  | extendComp c parent => cases ref <;> simp [exec, Graph.profiles, tags, references]
  | bindComp c bound => cases ref <;> simp [exec, Graph.profiles, tags, references]
  | mergePatch q =>
    cases ref <;> simp [exec, Graph.profiles, tags, references, touchModule,
      mem_profilesOf_upsert tags_moduleTouch, mem_profilesOf_upsert (tags_patchWrite ps q)]
  | patchComp q =>
    simp only [exec]
    split
    · rename_i hfound
      cases ref <;> simp [Graph.profiles, tags, references]
      rename_i k
      intro hk hmissing
      subst hk
      exact absurd hmissing hfound
    · rename_i hnone
      rw [not_not] at hnone
      cases ref <;> simp [Graph.profiles, tags, references, mem_profilesOf_upsert (tags_compStub ps)]
      rename_i k
      refine or_congr_right (and_congr_left fun _ => ⟨fun hk => ⟨hk, ?_⟩, fun hk => hk.1⟩)
      subst hk
      exact hnone

theorem CodeStmt.mem_profiles_exec (hreal : ref.Real) (g : Graph) (st : CodeStmt) :
    p ∈ (exec ps g st).profiles ref ↔ p ∈ g.profiles ref ∨ (ref ∈ st.tags ∧ p ∈ ps) := by
  have hno : ¬ (ref ∈ st.references ∧ g.Missing ref) :=
    fun h => not_real_of_mem_references h.1 hreal
  rw [mem_profiles_exec_iff, or_iff_left hno]

theorem JsStmt.mem_profiles_exec (hreal : ref.Real) (g : Graph) (st : JsStmt) :
    p ∈ (exec ps g st).profiles ref ↔ p ∈ g.profiles ref ∨ (ref ∈ st.tags ∧ p ∈ ps) := by
  have hno : ¬ (ref ∈ st.references ∧ g.Missing ref) :=
    fun h => not_real_of_mem_references h.1 hreal
  rw [mem_profiles_exec_iff, or_iff_left hno]

theorem XmlStmt.mem_profiles_exec_iff (g : Graph) (st : XmlStmt) :
    p ∈ (exec ps g st).profiles ref ↔
      p ∈ g.profiles ref ∨ ((ref ∈ st.tags ∨ (ref ∈ st.references ∧ g.Missing ref)) ∧ p ∈ ps) := by
  cases st with
  | mergeView v =>
    cases ref with
    | view xmlid ver =>
      refine (mem_profilesAt_declare g.views ps v.xmlid v.odooVersion v.module v.props).trans ?_
      simp [Graph.profiles, tags, references, eq_comm]
    | _ => simp [exec, Graph.profiles, tags, references]
  | inheritView v base =>
    cases ref with
    | view xmlid ver =>
      refine (mem_profilesAt_inherit g.views ps v.xmlid v.odooVersion base).trans ?_
      simp only [Graph.profiles, tags, references, Graph.Missing, List.mem_singleton,
        NodeRef.view.injEq, List.not_mem_nil, false_or, and_assoc, eq_comm (a := base),
        eq_comm (a := v.odooVersion)]
    | _ => simp [exec, Graph.profiles, tags, references]
  | mergeQWeb q =>
    cases ref with
    | qweb xmlid ver =>
      refine (mem_profilesAt_declare g.qwebs ps q.xmlid q.odooVersion q.module ()).trans ?_
      simp [Graph.profiles, tags, references, eq_comm]
    | _ => simp [exec, Graph.profiles, tags, references]
  | inheritQWeb q base =>
    cases ref with
    | qweb xmlid ver =>
      refine (mem_profilesAt_inherit g.qwebs ps q.xmlid q.odooVersion base).trans ?_
      simp only [Graph.profiles, tags, references, Graph.Missing, List.mem_singleton,
        NodeRef.qweb.injEq, List.not_mem_nil, false_or, and_assoc, eq_comm (a := base),
        eq_comm (a := q.odooVersion)]
    | _ => simp [exec, Graph.profiles, tags, references]
  | viewDefinedIn v =>
    cases ref <;> simp [exec, Graph.profiles, tags, references, touchModule,
      mem_profilesOf_upsert tags_moduleTouch]
  | targetModel v => cases ref <;> simp [exec, Graph.profiles, tags, references]
  | qwebDefinedIn q =>
    cases ref <;> simp [exec, Graph.profiles, tags, references, touchModule,
      mem_profilesOf_upsert tags_moduleTouch]

/-- The XML statements leave the keyed labels alone. -/
theorem XmlStmt.mem_profiles_exec (hkeyed : ref.Keyed) (g : Graph) (st : XmlStmt) :
    p ∈ (exec ps g st).profiles ref ↔ p ∈ g.profiles ref := by
  rw [mem_profiles_exec_iff]
  refine or_iff_left fun h => ?_
  cases st <;> simp_all [tags, references, NodeRef.Keyed]

theorem mem_profiles_writeStylesheet (g : Graph) (s : StylesheetInfo) :
    p ∈ (writeStylesheet ps g s).profiles ref ↔ p ∈ g.profiles ref ∨ (ref ∈ s.tags ∧ p ∈ ps) := by
  have himport : ∀ (g : Graph) (target : String),
      (importStylesheet s target g).profiles ref = g.profiles ref := by
    intro g target
    cases ref <;> rfl
  have hmerge : (writeStylesheet ps g s).profiles ref = (mergeStylesheet ps s g).profiles ref :=
    foldl_eq_of_exec_eq (fun g : Graph => g.profiles ref) himport s.imports (mergeStylesheet ps s g)
  rw [hmerge]
  cases ref <;> simp [mergeStylesheet, Graph.profiles, StylesheetInfo.tags,
    mem_profilesOf_upsert (tags_moduleUnion ps)]

end Statements

/-! ## One transaction -/

namespace WriteStep

/-- `$profiles` -/
def profiles : WriteStep Vec → List String
  | writeResult ps _ => ps
  | writeView ps _ => ps
  | writeJs ps _ => ps
  | writeStylesheets ps _ => ps
  | _ => []

/-- The keyed nodes whose array a transaction extends. -/
def tags : WriteStep Vec → List NodeRef
  | writeResult _ r => (parseResultStmts r).flatMap CodeStmt.tags
  | writeJs _ r => (jsGraphResultStmts r).flatMap JsStmt.tags
  | writeStylesheets _ batch => batch.flatMap StylesheetInfo.tags
  | _ => []

def viewWrites : WriteStep Vec → List (XmlWrite ViewProps)
  | writeView ps r => r.views.map (ViewInfo.write ps)
  | _ => []

def qwebWrites : WriteStep Vec → List (XmlWrite Unit)
  | writeView ps r => r.qweb.map (QWebInfo.write ps)
  | _ => []

/-- The transaction is a garbage collection that takes the node out. -/
def Collects (ref : NodeRef) (ix : Index Vec) (s : WriteStep Vec) : Prop :=
  ∃ k repo version live, ref = .module k ∧ s = .gcStaleModules repo version live ∧
    ix.graph.isStale repo version live k = true

variable {ref : NodeRef} {p : String}

theorem not_collects {s : WriteStep Vec} (h : ∀ repo version live, s ≠ .gcStaleModules repo version live)
    (ix : Index Vec) : ¬ s.Collects ref ix := by
  intro hc
  obtain ⟨k, repo, version, live, -, hs, -⟩ := hc
  exact h repo version live hs

theorem mem_profiles_gcStaleModules (hkeyed : ref.Keyed) (repo version : String)
    (live : List String) (ix : Index Vec) :
    p ∈ (exec ix (.gcStaleModules repo version live)).graph.profiles ref ↔
      p ∈ ix.graph.profiles ref ∧ ¬ (gcStaleModules repo version live).Collects ref ix := by
  cases ref with
  | module k =>
    have hcollects : (gcStaleModules repo version live).Collects (.module k) ix ↔
        isStaleModule repo version live k (ix.graph.modules.lookup k) = true := by
      constructor
      · intro h
        obtain ⟨k', r', v', l', hk, hs, hstale⟩ := h
        obtain rfl := NodeRef.module.inj hk
        obtain ⟨rfl, rfl, rfl⟩ := WriteStep.gcStaleModules.inj hs
        exact hstale
      · intro h
        exact ⟨k, repo, version, live, rfl, rfl, h⟩
    show p ∈ profilesOf ModuleProps.profile
        ((OdooSemantic.gcStaleModules repo version live ix.graph).modules.lookup k) ↔
      p ∈ profilesOf ModuleProps.profile (ix.graph.modules.lookup k) ∧ _
    rw [lookup_modules_gcStaleModules, hcollects]
    split
    · rename_i hstale
      simp [profilesOf, hstale]
    · rename_i hstale
      simp [hstale]
  | view xmlid ver => exact absurd hkeyed (by simp [NodeRef.Keyed])
  | qweb xmlid ver => exact absurd hkeyed (by simp [NodeRef.Keyed])
  | _ => exact (and_iff_left fun ⟨k, _, _, _, hk, _⟩ => absurd hk (by simp)).symm

/-- What a transaction does to the array of a keyed node. -/
theorem mem_profiles_exec (hreal : ref.Real) (hkeyed : ref.Keyed) (s : WriteStep Vec)
    (ix : Index Vec) :
    p ∈ (exec ix s).graph.profiles ref ↔
      (ref ∈ s.tags ∧ p ∈ s.profiles) ∨ (p ∈ ix.graph.profiles ref ∧ ¬ s.Collects ref ix) := by
  have hmerge : (∀ repo version live, s ≠ .gcStaleModules repo version live) →
      (p ∈ (exec ix s).graph.profiles ref ↔
        p ∈ ix.graph.profiles ref ∨ (ref ∈ s.tags ∧ p ∈ s.profiles)) →
      (p ∈ (exec ix s).graph.profiles ref ↔
        (ref ∈ s.tags ∧ p ∈ s.profiles) ∨ (p ∈ ix.graph.profiles ref ∧ ¬ s.Collects ref ix)) := by
    intro hno h
    rw [h, and_iff_left (not_collects hno ix), or_comm]
  have hfold : ∀ {S : Type} {ss : List S} {ps : List String} {tag : S → List NodeRef},
      (∃ st ∈ ss, ref ∈ tag st ∧ p ∈ ps) ↔ ref ∈ ss.flatMap tag ∧ p ∈ ps := by
    intro S ss ps tag
    rw [List.mem_flatMap]
    exact ⟨fun ⟨st, h, ht, hp⟩ => ⟨⟨st, h, ht⟩, hp⟩, fun ⟨⟨st, h, ht⟩, hp⟩ => ⟨st, h, ht, hp⟩⟩
  cases s with
  | embed embedder module version chunks =>
    exact hmerge (by simp) (by simp [exec, tags])
  | writeResult ps r =>
    refine hmerge (by simp) (Iff.trans ?_ (or_congr_right hfold))
    exact foldl_iff (P := fun g => p ∈ Graph.profiles g ref)
      (fun st _ g => CodeStmt.mem_profiles_exec hreal g st) ix.graph
  | writeView ps r =>
    refine hmerge (by simp) ?_
    have hkeep : p ∈ (exec ix (.writeView ps r)).graph.profiles ref ↔ p ∈ ix.graph.profiles ref ∨
        ∃ st ∈ viewParseResultStmts r, False :=
      foldl_iff (P := fun g => p ∈ Graph.profiles g ref)
        (fun st _ g => (XmlStmt.mem_profiles_exec hkeyed g st).trans (or_false _).symm.to_iff) ix.graph
    rw [hkeep]
    simp [tags]
  | writeJs ps r =>
    refine hmerge (by simp) (Iff.trans ?_ (or_congr_right hfold))
    exact foldl_iff (P := fun g => p ∈ Graph.profiles g ref)
      (fun st _ g => JsStmt.mem_profiles_exec hreal g st) ix.graph
  | writeStylesheets ps batch =>
    refine hmerge (by simp) (Iff.trans ?_ (or_congr_right hfold))
    exact foldl_iff (P := fun g => p ∈ Graph.profiles g ref)
      (fun s _ g => mem_profiles_writeStylesheet g s) ix.graph
  | gcStaleModules repo version live =>
    rw [mem_profiles_gcStaleModules hkeyed]
    simp [tags]

/-! ### The XML labels -/

end WriteStep

/-- The two tables that only the view writer merges into. -/
def Graph.xml (g : Graph) : XmlStore ViewProps × XmlStore Unit := (g.views, g.qwebs)

namespace WriteStep

theorem xml_code_exec (ps : List String) (g : Graph) (st : CodeStmt) :
    (CodeStmt.exec ps g st).xml = g.xml := by
  cases st <;> simp only [CodeStmt.exec] <;> first | rfl | (split <;> rfl)

theorem xml_js_exec (ps : List String) (g : Graph) (st : JsStmt) :
    (JsStmt.exec ps g st).xml = g.xml := by
  cases st <;> simp only [JsStmt.exec] <;> first | rfl | (split; all_goals rfl)

theorem xml_writeStylesheet (ps : List String) (g : Graph) (s : StylesheetInfo) :
    (writeStylesheet ps g s).xml = g.xml := by
  have himport : ∀ (g : Graph) (target : String), (importStylesheet s target g).xml = g.xml :=
    fun _ _ => rfl
  exact foldl_eq_of_exec_eq Graph.xml himport s.imports (mergeStylesheet ps s g)

theorem xml_exec (s : WriteStep Vec) (ix : Index Vec) :
    (exec ix s).graph.xml =
      (writeAll s.viewWrites ix.graph.views, writeAll s.qwebWrites ix.graph.qwebs) := by
  cases s with
  | writeView ps r =>
    exact Prod.ext (views_writeViewParseResult ps r ix.graph)
      (qwebs_writeViewParseResult ps r ix.graph)
  | writeResult ps r => exact foldl_eq_of_exec_eq Graph.xml (xml_code_exec ps) _ ix.graph
  | writeJs ps r => exact foldl_eq_of_exec_eq Graph.xml (xml_js_exec ps) _ ix.graph
  | writeStylesheets ps batch =>
    exact foldl_eq_of_exec_eq Graph.xml (xml_writeStylesheet ps) _ ix.graph
  | _ => rfl

theorem views_execAll (ss : List (WriteStep Vec)) (ix : Index Vec) :
    (execAll ss ix).graph.views = writeAll (ss.flatMap viewWrites) ix.graph.views := by
  induction ss generalizing ix with
  | nil => rfl
  | cons s ss ih =>
    have hs : (exec ix s).graph.views = writeAll s.viewWrites ix.graph.views :=
      congrArg Prod.fst (xml_exec s ix)
    rw [execAll_cons, ih, hs, List.flatMap_cons, writeAll_append]

theorem qwebs_execAll (ss : List (WriteStep Vec)) (ix : Index Vec) :
    (execAll ss ix).graph.qwebs = writeAll (ss.flatMap qwebWrites) ix.graph.qwebs := by
  induction ss generalizing ix with
  | nil => rfl
  | cons s ss ih =>
    have hs : (exec ix s).graph.qwebs = writeAll s.qwebWrites ix.graph.qwebs :=
      congrArg Prod.snd (xml_exec s ix)
    rw [execAll_cons, ih, hs, List.flatMap_cons, writeAll_append]

end WriteStep

/-! ## A list of transactions -/

/-- The transactions bring the profile to the node, and it stays there. -/
def Tagged (ss : List (WriteStep Vec)) (p : String) : NodeRef → Prop
  | .view xmlid ver => Reached (ss.flatMap WriteStep.viewWrites) xmlid ver p
  | .qweb xmlid ver => Reached (ss.flatMap WriteStep.qwebWrites) xmlid ver p
  | ref => ∃ us s vs, ss = us ++ s :: vs ∧ (ref ∈ s.tags ∧ p ∈ s.profiles) ∧
      Kept WriteStep.exec (fun ix s => s.Collects ref ix) vs (WriteStep.execAll (us ++ [s]) {})

/-- **The profile array of a node is what the transactions brought to it.** -/
theorem mem_profiles_execAll {ref : NodeRef} {p : String} (hreal : ref.Real)
    (ss : List (WriteStep Vec)) :
    p ∈ (WriteStep.execAll ss ({} : Index Vec)).graph.profiles ref ↔ Tagged ss p ref := by
  have hkeyed : ref.Keyed → (p ∈ (WriteStep.execAll ss ({} : Index Vec)).graph.profiles ref ↔
      ∃ us s vs, ss = us ++ s :: vs ∧ (ref ∈ s.tags ∧ p ∈ s.profiles) ∧
        Kept WriteStep.exec (fun ix s => s.Collects ref ix) vs
          (WriteStep.execAll (us ++ [s]) ({} : Index Vec))) := by
    intro hk
    have hnone : p ∉ ({} : Graph).profiles ref := by
      cases ref <;> simp [Graph.profiles, profilesOf, profilesAt, matching]
    refine (foldl_iff_of_kept (P := fun ix : Index Vec => p ∈ ix.graph.profiles ref)
      (fun s ix => WriteStep.mem_profiles_exec hreal hk s ix) ss {}).trans ?_
    exact or_iff_right fun h => hnone h.1
  cases ref with
  | view xmlid ver =>
    show p ∈ profilesAt (WriteStep.execAll ss ({} : Index Vec)).graph.views xmlid ver ↔ _
    rw [WriteStep.views_execAll]
    exact mem_profilesAt_writeAll _ rfl
  | qweb xmlid ver =>
    show p ∈ profilesAt (WriteStep.execAll ss ({} : Index Vec)).graph.qwebs xmlid ver ↔ _
    rw [WriteStep.qwebs_execAll]
    exact mem_profilesAt_writeAll _ rfl
  | _ => exact hkeyed trivial

theorem exists_mem_of_reached {P : Type} {ws : List (XmlWrite P)} {xmlid ver p : String}
    (h : Reached ws xmlid ver p) : ∃ w ∈ ws, p ∈ w.profiles := by
  rcases h with ⟨w, hw, -, hp⟩ | ⟨-, w, hw, -, hp⟩
  · exact ⟨w, hw, hp⟩
  · exact ⟨w, hw, hp⟩

/-- A profile that gets to a node is brought by a transaction. -/
theorem Tagged.exists_mem {ss : List (WriteStep Vec)} {p : String} {ref : NodeRef}
    (h : Tagged ss p ref) : ∃ s ∈ ss, p ∈ s.profiles := by
  have hkeyed : (∃ us s vs, ss = us ++ s :: vs ∧ (ref ∈ s.tags ∧ p ∈ s.profiles) ∧
      Kept WriteStep.exec (fun ix s => s.Collects ref ix) vs
        (WriteStep.execAll (us ++ [s]) ({} : Index Vec))) → ∃ s ∈ ss, p ∈ s.profiles := by
    intro hsplit
    obtain ⟨us, s, vs, rfl, ⟨-, hp⟩, -⟩ := hsplit
    exact ⟨s, List.mem_append_right _ List.mem_cons_self, hp⟩
  cases ref with
  | view xmlid ver =>
    obtain ⟨w, hw, hp⟩ := exists_mem_of_reached h
    obtain ⟨s, hs, hws⟩ := List.mem_flatMap.mp hw
    cases s with
    | writeView ps r =>
      obtain ⟨v, -, rfl⟩ := List.mem_map.mp hws
      exact ⟨_, hs, hp⟩
    | _ => exact absurd hws (by simp [WriteStep.viewWrites])
  | qweb xmlid ver =>
    obtain ⟨w, hw, hp⟩ := exists_mem_of_reached h
    obtain ⟨s, hs, hws⟩ := List.mem_flatMap.mp hw
    cases s with
    | writeView ps r =>
      obtain ⟨q, -, rfl⟩ := List.mem_map.mp hws
      exact ⟨_, hs, hp⟩
    | _ => exact absurd hws (by simp [WriteStep.qwebWrites])
  | _ => exact hkeyed h

end OdooSemantic
