import OdooSemantic.Indexer.WriterNeo4j

/-!
# `Neo4jWriter.delete_modules_scoped` — the modules of a repo, with what they own

Three queries one after the other: the names of the modules of `(repo, odoo_version)`; every
node of seven labels whose `module` is one of the names; the modules themselves. What belongs
to a module is decided by the pair `(module, odoo_version)` on the node, not by an edge.

`gc_stale_modules` is the other way a module goes (`Indexer/WriterNeo4j.lean`). It takes the
module nodes out and nothing else.
-/

namespace OdooSemantic

open KeyedStore FlaggedEdges

/-! ## Who owns a node -/

def MemberKey.moduleKey (k : MemberKey) : ModuleKey := ⟨k.module, k.odooVersion⟩

def OWLCompKey.moduleKey (k : OWLCompKey) : ModuleKey := ⟨k.module, k.odooVersion⟩

def JSPatchKey.moduleKey (k : JSPatchKey) : ModuleKey := ⟨k.module, k.odooVersion⟩

def StylesheetKey.moduleKey (k : StylesheetKey) : ModuleKey := ⟨k.module, k.odooVersion⟩

def XmlNode.moduleKey {P : Type} (n : XmlNode P) : ModuleKey := ⟨n.module, n.odooVersion⟩

/-- `MATCH (m:Module {repo: $repo, odoo_version: $version})`, at a key. -/
def Graph.inRepo (g : Graph) (repo version : String) (k : ModuleKey) : Bool :=
  k.odooVersion = version &&
    match g.modules.lookup k with
    | some p => p.repo = some repo
    | none => false

/-- `RETURN collect(m.name) AS names` -/
def Graph.moduleNames (g : Graph) (repo version : String) : List String :=
  (g.modules.keys.filter (g.inRepo repo version)).map (·.name)

/-! ## `DETACH DELETE` -/

namespace XmlStore

variable {P : Type}

def idsOf (dead : XmlNode P → Bool) (s : XmlStore P) : List Nat :=
  (s.nodes.filter dead).map (·.id)

def detach (dead : XmlNode P → Bool) (s : XmlStore P) : XmlStore P where
  nodes := s.nodes.filter fun n => !dead n
  links := eraseWhere (fun e => e.1 ∈ s.idsOf dead || e.2.1 ∈ s.idsOf dead) s.links

end XmlStore

/-- `DETACH DELETE` of the nodes that belong to the modules `dead`: `Model`, `Field`, `Method`,
    `View`, `QWebTmpl`, `JSPatch`, `OWLComp`. -/
def Graph.detachChildren (dead : ModuleKey → Bool) (g : Graph) : Graph :=
  let views := g.views.idsOf fun n => dead n.moduleKey
  let qwebs := g.qwebs.idsOf fun n => dead n.moduleKey
  { g with
    models := eraseWhere (fun k => dead k.moduleKey) g.models
    fields := eraseWhere (fun k => dead k.moduleKey) g.fields
    methods := eraseWhere (fun k => dead k.moduleKey) g.methods
    views := g.views.detach fun n => dead n.moduleKey
    qwebs := g.qwebs.detach fun n => dead n.moduleKey
    jsPatches := eraseWhere (fun k => dead k.moduleKey) g.jsPatches
    owlComps := eraseWhere (fun k => dead k.moduleKey) g.owlComps
    modelDefinedIn := g.modelDefinedIn.filter fun e => !dead e.1.moduleKey
    inherits := eraseWhere (fun e => dead e.1.moduleKey || dead e.2.1.moduleKey) g.inherits
    delegatesTo := eraseWhere (fun e => dead e.1.moduleKey || dead e.2.1.1.moduleKey) g.delegatesTo
    fieldBelongsTo :=
      g.fieldBelongsTo.filter fun e => !dead e.1.moduleKey && !dead e.2.moduleKey
    methodBelongsTo :=
      g.methodBelongsTo.filter fun e => !dead e.1.moduleKey && !dead e.2.moduleKey
    usesCoreSymbol := g.usesCoreSymbol.filter fun e => !dead e.1.moduleKey
    viewDefinedIn := g.viewDefinedIn.filter fun e => e.1 ∉ views
    targetsModel := g.targetsModel.filter fun e => e.1 ∉ views ∧ dead e.2.moduleKey = false
    qwebDefinedIn := g.qwebDefinedIn.filter fun e => e.1 ∉ qwebs
    compDefinedIn := g.compDefinedIn.filter fun e => !dead e.1.moduleKey
    compExtends := g.compExtends.filter fun e => !dead e.1.moduleKey && !dead e.2.moduleKey
    boundTo := g.boundTo.filter fun e => !dead e.1.moduleKey && !dead e.2.moduleKey
    patchDefinedIn := g.patchDefinedIn.filter fun e => !dead e.1.moduleKey
    patches := eraseWhere (fun e => dead e.1.moduleKey || dead e.2.1.moduleKey) g.patches }

/-- How many nodes that is. -/
def Graph.countChildren (dead : ModuleKey → Bool) (g : Graph) : Nat :=
  (g.models.keys.filter fun k => dead k.moduleKey).length
    + (g.fields.keys.filter fun k => dead k.moduleKey).length
    + (g.methods.keys.filter fun k => dead k.moduleKey).length
    + (g.views.idsOf fun n => dead n.moduleKey).length
    + (g.qwebs.idsOf fun n => dead n.moduleKey).length
    + (g.jsPatches.keys.filter fun k => dead k.moduleKey).length
    + (g.owlComps.keys.filter fun k => dead k.moduleKey).length

/-- `{"modules": N, "children": M}` -/
structure DeletedCounts where
  modules : Nat
  children : Nat
deriving DecidableEq

/-- `delete_modules_scoped(repo_basename, odoo_version)` -/
def deleteModulesScoped (repo version : String) (g : Graph) : Graph × DeletedCounts :=
  let names := g.moduleNames repo version
  if names = [] then (g, ⟨0, 0⟩)
  else
    let dead : ModuleKey → Bool := fun k => k.name ∈ names && k.odooVersion = version
    let children := g.countChildren dead
    let g := g.detachChildren dead
    let modules := (g.modules.keys.filter (g.inRepo repo version)).length
    (g.detachModules (g.inRepo repo version), ⟨modules, children⟩)

/-! ## What is gone and what is as it was -/

theorem inRepo_iff {g : Graph} {repo version : String} {k : ModuleKey} :
    g.inRepo repo version k = true ↔
      k.odooVersion = version ∧ ∃ p, g.modules.lookup k = some p ∧ p.repo = some repo := by
  unfold Graph.inRepo
  cases g.modules.lookup k <;> simp

/-- The names and the version are the modules again. -/
theorem mem_moduleNames_iff {g : Graph} {repo version : String} {k : ModuleKey} :
    (k.name ∈ g.moduleNames repo version ∧ k.odooVersion = version) ↔
      g.inRepo repo version k = true := by
  unfold Graph.moduleNames
  rw [List.mem_map]
  constructor
  · intro h
    obtain ⟨⟨k', hk', hname⟩, hver⟩ := h
    have hin := (List.mem_filter.mp hk').2
    obtain rfl : k' = k := by
      cases k
      cases k'
      obtain rfl : _ = version := (inRepo_iff.mp hin).1
      simp_all
    exact hin
  · intro h
    obtain ⟨hver, p, hp, -⟩ := inRepo_iff.mp h
    have hmem : k ∈ g.modules := AList.lookup_isSome.mp (by rw [hp]; rfl)
    exact ⟨⟨k, List.mem_filter.mpr ⟨AList.mem_keys.mp hmem, h⟩, rfl⟩, hver⟩

/-! ## Entities -/

/-- A node with a `module` property. An XML node is named by itself, as its key is not its
    own. -/
inductive EntityNode where
  | model (k : ModelKey)
  | field (k : MemberKey)
  | method (k : MemberKey)
  | view (n : XmlNode ViewProps)
  | qweb (n : XmlNode Unit)
  | patch (k : JSPatchKey)
  | comp (k : OWLCompKey)
  | stylesheet (k : StylesheetKey)

/-- `(n.module, n.odoo_version)` -/
def EntityNode.owner : EntityNode → ModuleKey
  | model k => k.moduleKey
  | field k => k.moduleKey
  | method k => k.moduleKey
  | view n => n.moduleKey
  | qweb n => n.moduleKey
  | patch k => k.moduleKey
  | comp k => k.moduleKey
  | stylesheet k => k.moduleKey

/-- One of the seven labels of the second query. -/
def EntityNode.IsChild : EntityNode → Prop
  | stylesheet _ => False
  | _ => True

/-- The node is in the graph. -/
def Graph.Has (g : Graph) : EntityNode → Prop
  | .model k => k ∈ g.models
  | .field k => k ∈ g.fields
  | .method k => k ∈ g.methods
  | .view n => n ∈ g.views.nodes
  | .qweb n => n ∈ g.qwebs.nodes
  | .patch k => k ∈ g.jsPatches
  | .comp k => k ∈ g.owlComps
  | .stylesheet k => k ∈ g.stylesheets

/-- The node is in both graphs with the same properties, or in neither. -/
def SameNode (g h : Graph) : EntityNode → Prop
  | .model k => h.models.lookup k = g.models.lookup k
  | .field k => h.fields.lookup k = g.fields.lookup k
  | .method k => h.methods.lookup k = g.methods.lookup k
  | .view n => n ∈ h.views.nodes ↔ n ∈ g.views.nodes
  | .qweb n => n ∈ h.qwebs.nodes ↔ n ∈ g.qwebs.nodes
  | .patch k => h.jsPatches.lookup k = g.jsPatches.lookup k
  | .comp k => h.owlComps.lookup k = g.owlComps.lookup k
  | .stylesheet k => h.stylesheets.lookup k = g.stylesheets.lookup k

theorem SameNode.refl (g : Graph) (e : EntityNode) : SameNode g g e := by
  cases e <;> rfl

/-- Module nodes apart, taking modules out changes no node. -/
theorem sameNode_detachModules (g : Graph) (dead : ModuleKey → Bool) (e : EntityNode) :
    SameNode g (g.detachModules dead) e := by
  cases e <;> rfl

theorem SameNode.trans {g h i : Graph} {e : EntityNode} (hgh : SameNode g h e)
    (hhi : SameNode h i e) : SameNode g i e := by
  cases e with
  | view n => exact Iff.trans hhi hgh
  | qweb n => exact Iff.trans hhi hgh
  | _ => exact Eq.trans hhi hgh

theorem SameNode.has {g h : Graph} {e : EntityNode} (hs : SameNode g h e) : h.Has e ↔ g.Has e := by
  have hkeyed : ∀ {K V : Type} [DecidableEq K] {s t : Store K V} {k : K},
      t.lookup k = s.lookup k → (k ∈ t ↔ k ∈ s) := by
    intro K V _ s t k heq
    rw [← AList.lookup_isSome, ← AList.lookup_isSome, heq]
  cases e with
  | view n => exact hs
  | qweb n => exact hs
  | _ => exact hkeyed hs

section Children

variable {g : Graph} {dead : ModuleKey → Bool} {e : EntityNode}

theorem has_detachChildren (he : e.IsChild) :
    (g.detachChildren dead).Has e ↔ g.Has e ∧ dead e.owner = false := by
  cases e with
  | view n => simp [Graph.detachChildren, Graph.Has, XmlStore.detach, EntityNode.owner]
  | qweb n => simp [Graph.detachChildren, Graph.Has, XmlStore.detach, EntityNode.owner]
  | stylesheet k => exact absurd he not_false
  | _ => exact mem_eraseWhere

/-- **What belongs to no dead module is as it was.** -/
theorem sameNode_detachChildren (he : dead e.owner = false) :
    SameNode g (g.detachChildren dead) e := by
  have hkeyed : ∀ {K V : Type} [DecidableEq K] {s : Store K V} {p : K → Bool} {k : K},
      p k = false → (eraseWhere p s).lookup k = s.lookup k := by
    intro K V _ s p k hk
    rw [lookup_eraseWhere, hk]
    rfl
  cases e with
  | view n => simpa [SameNode, Graph.detachChildren, XmlStore.detach, EntityNode.owner] using
      fun _ => he
  | qweb n => simpa [SameNode, Graph.detachChildren, XmlStore.detach, EntityNode.owner] using
      fun _ => he
  | stylesheet k => rfl
  | model k => exact hkeyed he
  | field k => exact hkeyed he
  | method k => exact hkeyed he
  | patch k => exact hkeyed he
  | comp k => exact hkeyed he

end Children

/-! ## The whole deletion -/

section Deletion

variable (g : Graph) (repo version : String)

/-- The modules that go are those of the repo, and each takes its children with it. -/
theorem deleteModulesScoped_eq :
    (deleteModulesScoped repo version g).1 = g ∧ (∀ k, g.inRepo repo version k = false) ∨
      (deleteModulesScoped repo version g).1 =
        (g.detachChildren (g.inRepo repo version)).detachModules (g.inRepo repo version) := by
  have hdead : (fun k : ModuleKey =>
      decide (k.name ∈ g.moduleNames repo version) && decide (k.odooVersion = version)) =
      g.inRepo repo version := by
    funext k
    rw [Bool.eq_iff_iff, ← mem_moduleNames_iff]
    simp
  unfold deleteModulesScoped
  by_cases hnames : g.moduleNames repo version = []
  · refine Or.inl ⟨by rw [if_pos hnames], fun k => ?_⟩
    rw [Bool.eq_false_iff]
    intro hk
    have hmem := (mem_moduleNames_iff.mpr hk).1
    rw [hnames] at hmem
    exact absurd hmem (by simp)
  · right
    rw [if_neg hnames]
    simp only [hdead]
    rfl

theorem lookup_modules_deleteModulesScoped (k : ModuleKey) :
    (deleteModulesScoped repo version g).1.modules.lookup k =
      if g.inRepo repo version k then none else g.modules.lookup k := by
  rcases deleteModulesScoped_eq g repo version with ⟨heq, hnone⟩ | heq
  · rw [heq, hnone k]
    rfl
  · rw [heq]
    exact lookup_eraseWhere _ k g.modules

/-- **No child of a deleted module is left.** -/
theorem owner_of_has_deleteModulesScoped {e : EntityNode} (he : e.IsChild)
    (h : (deleteModulesScoped repo version g).1.Has e) : g.inRepo repo version e.owner = false := by
  rcases deleteModulesScoped_eq g repo version with ⟨-, hnone⟩ | heq
  · exact hnone e.owner
  · rw [heq, (sameNode_detachModules _ _ e).has, has_detachChildren he] at h
    exact h.2

/-- **What belongs to another module is as it was.** -/
theorem sameNode_deleteModulesScoped {e : EntityNode} (h : g.inRepo repo version e.owner = false) :
    SameNode g (deleteModulesScoped repo version g).1 e := by
  rcases deleteModulesScoped_eq g repo version with ⟨heq, -⟩ | heq
  · rw [heq]
    exact .refl g e
  · rw [heq]
    exact (sameNode_detachChildren h).trans (sameNode_detachModules _ _ e)

end Deletion

end OdooSemantic
