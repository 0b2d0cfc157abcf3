import OdooSemantic.Mcp.ImpactAnalysis
import OdooSemantic.Proof.IndexedMembers
import OdooSemantic.Proof.OrmTools

/-!
# What an impact analysis comes upon, and how it is rated

The three lists that are counted are, row by row, what may be affected (`Affects`), each once and
whatever order the queries come upon it in, so the rating goes by the number of affected things
(`impact_exact`).

After indexing, what is found and which methods are reported goes by what the modules declare
(`impact_indexed`).

A model is affected by whatever one of its members is, and a profile has no more than all of them
together, so neither a member nor a profile is ever rated above its model (`impact_rank_le`).
-/

namespace OdooSemantic

open KeyedStore FlaggedEdges

/-- `RETURN DISTINCT …`, over the records of a store. -/
theorem mem_returnDistinct {K V R : Type} [DecidableEq K] [DecidableEq R] {s : Store K V}
    {keep : (Σ _ : K, V) → Bool} {f : (Σ _ : K, V) → R} {r : R} :
    r ∈ ((s.entries.filter keep).map f).dedup ↔
      ∃ k p, s.lookup k = some p ∧ keep ⟨k, p⟩ = true ∧ f ⟨k, p⟩ = r := by
  rw [List.mem_dedup, List.mem_map]
  constructor
  · rintro ⟨⟨k, p⟩, he, hf⟩
    obtain ⟨he, hkeep⟩ := List.mem_filter.mp he
    exact ⟨k, p, AList.mem_lookup_iff.mpr he, hkeep, hf⟩
  · rintro ⟨k, p, hk, hkeep, hf⟩
    exact ⟨⟨k, p⟩, List.mem_filter.mpr ⟨AList.mem_lookup_iff.mp hk, hkeep⟩, hf⟩

/-! ## What may be affected -/

inductive Affected where
  | view (xmlid module : String)
  | method (name module : String)
  | jsPatch (patch : AffectedPatch)
deriving DecidableEq

def Impact.affected (i : Impact) : List Affected :=
  (i.views.map fun r => .view r.1 r.2) ++ (i.methods.map fun r => .method r.1 r.2) ++
    i.jsPatches.map .jsPatch

/-- The methods that a change of the entity is taken to reach. -/
def ImpactEntity.Reaches : ImpactEntity → String → MethodProps → Prop
  | .field _ _, _, p => p.hasSuperCall = true
  | .method _ name, n, _ => n = name
  | .model _, _, _ => True

namespace Graph

variable (g : Graph) (v : String) (profileName : Option String)

/-- There is such an entity. -/
def Declares (entity : ImpactEntity) : Prop :=
  match entity with
  | .field owner name => ∃ k p, g.fields.lookup k = some p ∧ k.name = name ∧ k.model = owner ∧
      k.odooVersion = v ∧ inProfile profileName p.profile = true
  | .method owner name => ∃ k p, g.methods.lookup k = some p ∧ k.name = name ∧ k.model = owner ∧
      k.odooVersion = v ∧ inProfile profileName p.profile = true
  | .model name => ∃ k p, g.models.lookup k = some p ∧ k.name = name ∧ k.odooVersion = v ∧
      p.unresolved = false ∧ k.module ≠ unresolvedModule ∧ inProfile profileName p.profile = true

/-- A change of the entity may affect it. -/
inductive Affects (entity : ImpactEntity) : Affected → Prop
  | view {n : XmlNode ViewProps} {m : ModelKey} (hn : n ∈ g.views.nodes)
      (hm : m ∈ g.modelsNamed entity.modelName v) (htargets : (n.id, m) ∈ g.targetsModel)
      (hprofile : inProfile profileName n.profile = true) : Affects entity (.view n.xmlid n.module)
  | method {k : MemberKey} {p : MethodProps} (hk : g.methods.lookup k = some p)
      (hmodel : k.model = entity.modelName) (hversion : k.odooVersion = v)
      (hprofile : inProfile profileName p.profile = true) (hreaches : entity.Reaches k.name p) :
      Affects entity (.method k.name k.module)
  | jsPatch {k : JSPatchKey} {p : JSPatchProps} {comp : OWLCompKey} {m : ModelKey}
      (hk : g.jsPatches.lookup k = some p) (hcomp : comp ∈ g.owlComps)
      (hpatches : Linked g.patches k comp) (hm : m ∈ g.modelsNamed entity.modelName v)
      (hbound : (comp, m) ∈ g.boundTo) (hprofile : inProfile profileName p.profile = true) :
      Affects entity (.jsPatch ⟨k.target, k.patchName, k.module, p.era⟩)

variable {g v profileName} {entity : ImpactEntity}

theorem mem_impactViews {r : String × String} :
    r ∈ g.impactViews v profileName entity.modelName ↔
      g.Affects v profileName entity (.view r.1 r.2) := by
  rw [impactViews, List.mem_dedup, List.mem_map]
  constructor
  · rintro ⟨n, hn, rfl⟩
    obtain ⟨hn, htargets⟩ := List.mem_filter.mp hn
    rw [Bool.and_eq_true, List.any_eq_true] at htargets
    obtain ⟨⟨m, hm, hlink⟩, hprofile⟩ := htargets
    exact .view hn hm (of_decide_eq_true hlink) hprofile
  · intro h
    obtain ⟨xmlid, module⟩ := r
    cases h with
    | @view n m hn hm htargets hprofile =>
      refine ⟨n, List.mem_filter.mpr ⟨hn, ?_⟩, rfl⟩
      rw [Bool.and_eq_true, List.any_eq_true]
      exact ⟨⟨m, hm, decide_eq_true htargets⟩, hprofile⟩

theorem mem_impactMethods {r : String × String} :
    r ∈ g.impactMethods v profileName entity ↔
      g.Affects v profileName entity (.method r.1 r.2) := by
  have hreaches : ∀ (n : String) (p : MethodProps), entity.Reaches n p ↔
      (match entity with
        | .field _ _ => p.hasSuperCall
        | .method _ name => n = name
        | .model _ => true) = true := by
    intro n p
    cases entity <;> simp [ImpactEntity.Reaches]
  rw [impactMethods, mem_returnDistinct]
  simp only [Bool.and_eq_true, decide_eq_true_eq]
  constructor
  · rintro ⟨k, p, hk, ⟨⟨⟨hmodel, hversion⟩, hprofile⟩, hentity⟩, rfl⟩
    exact .method hk hmodel hversion hprofile ((hreaches _ _).mpr hentity)
  · intro h
    obtain ⟨name, module⟩ := r
    cases h with
    | @method k p hk hmodel hversion hprofile hentity =>
      exact ⟨k, p, hk, ⟨⟨⟨hmodel, hversion⟩, hprofile⟩, (hreaches _ _).mp hentity⟩, rfl⟩

theorem mem_impactPatches {a : AffectedPatch} :
    a ∈ g.impactPatches v profileName entity.modelName ↔
      g.Affects v profileName entity (.jsPatch a) := by
  rw [impactPatches, mem_returnDistinct]
  simp only [Bool.and_eq_true, decide_eq_true_eq, List.any_eq_true]
  constructor
  · rintro ⟨k, p, hk, ⟨⟨comp, hcomp, hpatches, m, hm, hbound⟩, hprofile⟩, rfl⟩
    exact .jsPatch hk (AList.mem_keys.mp hcomp) hpatches hm hbound hprofile
  · intro h
    cases h with
    | @jsPatch k p comp m hk hcomp hpatches hm hbound hprofile =>
      exact ⟨k, p, hk, ⟨⟨comp, AList.mem_keys.mpr hcomp, hpatches, m, hm, hbound⟩, hprofile⟩, rfl⟩

/-- A module of this name depends on one in which the model is defined. -/
def DependsOnModel (g : Graph) (v : String) (profileName : Option String) (model name : String) :
    Prop :=
  ∃ dep p m mod, g.modules.lookup dep = some p ∧ dep.name = name ∧
    inProfile profileName p.profile = true ∧ m ∈ g.modelsNamed model v ∧ mod ∈ g.modules ∧
      (m, mod) ∈ g.modelDefinedIn ∧ (dep, mod) ∈ g.dependsOn

theorem mem_impactDependents {model name : String} :
    name ∈ g.impactDependents v profileName model ↔ g.DependsOnModel v profileName model name := by
  rw [impactDependents, mem_returnDistinct]
  simp only [Bool.and_eq_true, decide_eq_true_eq, List.any_eq_true]
  constructor
  · rintro ⟨dep, p, hdep, ⟨⟨m, hm, mod, hmod, hdefined, hdepends⟩, hprofile⟩, rfl⟩
    exact ⟨dep, p, m, mod, hdep, rfl, hprofile, hm, AList.mem_keys.mp hmod, hdefined, hdepends⟩
  · rintro ⟨dep, p, m, mod, hdep, rfl, hprofile, hm, hmod, hdefined, hdepends⟩
    exact ⟨dep, p, hdep, ⟨⟨m, hm, mod, AList.mem_keys.mpr hmod, hdefined, hdepends⟩, hprofile⟩, rfl⟩

/-- The model is declared in this module. -/
def DefinesModel (g : Graph) (v : String) (profileName : Option String) (model module : String) :
    Prop :=
  ∃ k p mod, g.models.lookup k = some p ∧ k.name = model ∧ k.odooVersion = v ∧
    k.module = module ∧ inProfile profileName p.profile = true ∧ mod ∈ g.modules ∧
      (k, mod) ∈ g.modelDefinedIn

theorem mem_impactDefinitions {model module : String} :
    module ∈ g.impactDefinitions v profileName model ↔
      g.DefinesModel v profileName model module := by
  rw [impactDefinitions, mem_returnDistinct]
  simp only [Bool.and_eq_true, decide_eq_true_eq, List.any_eq_true]
  constructor
  · rintro ⟨k, p, hk, ⟨⟨⟨hname, hversion⟩, mod, hmod, hdefined⟩, hprofile⟩, rfl⟩
    exact ⟨k, p, mod, hk, hname, hversion, rfl, hprofile, AList.mem_keys.mp hmod, hdefined⟩
  · rintro ⟨k, p, mod, hk, hname, hversion, rfl, hprofile, hmod, hdefined⟩
    exact ⟨k, p, hk, ⟨⟨⟨hname, hversion⟩, mod, AList.mem_keys.mpr hmod, hdefined⟩, hprofile⟩, rfl⟩

/-! ## The first query -/

theorem impactCount_ne_zero : g.impactCount v profileName entity ≠ 0 ↔
    g.Declares v profileName entity := by
  rw [Nat.ne_zero_iff_zero_lt]
  cases entity with
  | field owner name =>
    rw [impactCount, List.length_pos_iff_exists_mem, Declares]
    constructor
    · rintro ⟨f, hf⟩
      obtain ⟨hname, hmodel, hversion, hlookup⟩ := mem_fieldNamed hf
      refine ⟨f.1, f.2, hlookup, hname, hmodel, hversion, ?_⟩
      have hkey := (List.mem_filter.mp hf).2
      simp only [Bool.and_eq_true] at hkey
      exact hkey.1.2
    · rintro ⟨k, p, hk, hname, hmodel, hversion, hprofile⟩
      refine ⟨(k, p), List.mem_filter.mpr ⟨?_, ?_⟩⟩
      · exact List.mem_map.mpr ⟨⟨k, p⟩, AList.mem_lookup_iff.mp hk, rfl⟩
      · simp [hname, hmodel, hversion, hprofile, matchesParam]
  | method owner name =>
    rw [impactCount, List.length_pos_iff_exists_mem, Declares]
    constructor
    · rintro ⟨f, hf⟩
      obtain ⟨hmem, hkey⟩ := List.mem_filter.mp hf
      obtain ⟨e, he, rfl⟩ := List.mem_map.mp hmem
      simp only [Bool.and_eq_true, decide_eq_true_eq] at hkey
      exact ⟨e.1, e.2, AList.mem_lookup_iff.mpr he, hkey.1.1.1, hkey.1.1.2, hkey.1.2, hkey.2⟩
    · rintro ⟨k, p, hk, hname, hmodel, hversion, hprofile⟩
      refine ⟨(k, p), List.mem_filter.mpr ⟨?_, ?_⟩⟩
      · exact List.mem_map.mpr ⟨⟨k, p⟩, AList.mem_lookup_iff.mp hk, rfl⟩
      · simp [hname, hmodel, hversion, hprofile]
  | model name =>
    rw [impactCount, List.length_pos_iff_exists_mem, Declares]
    constructor
    · rintro ⟨e, he⟩
      obtain ⟨he, hkey⟩ := List.mem_filter.mp he
      simp only [Bool.and_eq_true, decide_eq_true_eq, Bool.not_eq_true'] at hkey
      obtain ⟨⟨⟨⟨hname, hversion⟩, hresolved⟩, hmodule⟩, hprofile⟩ := hkey
      exact ⟨e.1, e.2, AList.mem_lookup_iff.mpr he, hname, hversion, hresolved, hmodule, hprofile⟩
    · rintro ⟨k, p, hk, hname, hversion, hresolved, hmodule, hprofile⟩
      refine ⟨⟨k, p⟩, List.mem_filter.mpr ⟨AList.mem_lookup_iff.mp hk, ?_⟩⟩
      simp [hname, hversion, hresolved, hmodule, hprofile]

/-! ## The report -/

section Report

variable {q : QueryOrders} {i : Impact}

theorem impact_isSome : (g.impact v profileName q entity).isSome = true ↔
    g.Declares v profileName entity := by
  rw [← impactCount_ne_zero]
  unfold impact
  by_cases hzero : g.impactCount v profileName entity = 0
  · rw [if_pos hzero]
    simp [hzero]
  · rw [if_neg hzero]
    simp [hzero]

/-- Whatever order the rows come in. -/
theorem perm_of_impact (h : g.impact v profileName q entity = some i) :
    i.views.Perm (g.impactViews v profileName entity.modelName) ∧
      i.methods.Perm (g.impactMethods v profileName entity) ∧
      i.jsPatches.Perm (g.impactPatches v profileName entity.modelName) ∧
      i.depModules.Perm (g.impactDependents v profileName entity.modelName) := by
  unfold impact at h
  by_cases hzero : g.impactCount v profileName entity = 0
  · rw [if_pos hzero] at h
    exact absurd h (by simp)
  · rw [if_neg hzero] at h
    obtain rfl := Option.some.inj h
    refine ⟨(q.order _ _).perm _, ?_, (q.order _ _).perm _, (q.order _ _).perm _⟩
    cases entity <;> exact (q.order _ _).perm _

/-- They are looked for only where the entity is a model. -/
theorem mem_defModules (h : g.impact v profileName q entity = some i) {module : String} :
    module ∈ i.defModules ↔
      ∃ name, entity = .model name ∧ g.DefinesModel v profileName name module := by
  unfold impact at h
  by_cases hzero : g.impactCount v profileName entity = 0
  · rw [if_pos hzero] at h
    exact absurd h (by simp)
  · rw [if_neg hzero] at h
    obtain rfl := Option.some.inj h
    cases entity with
    | field owner name => simp
    | method owner name => simp
    | model name =>
      have hperm := (q.order 5 (id : String → String)).perm
        (g.impactDefinitions v profileName name)
      simp only [ImpactEntity.model.injEq, exists_eq_left']
      exact hperm.mem_iff.trans mem_impactDefinitions

theorem nodup_affected (h : g.impact v profileName q entity = some i) : i.affected.Nodup := by
  obtain ⟨hviews, hmethods, hpatches, -⟩ := perm_of_impact h
  have hv : i.views.Nodup := hviews.nodup_iff.mpr (List.nodup_dedup _)
  have hm : i.methods.Nodup := hmethods.nodup_iff.mpr (List.nodup_dedup _)
  have hp : i.jsPatches.Nodup := hpatches.nodup_iff.mpr (List.nodup_dedup _)
  unfold Impact.affected
  rw [List.nodup_append, List.nodup_append]
  refine ⟨⟨hv.map ?_, hm.map ?_, ?_⟩, hp.map ?_, ?_⟩
  · intro r r' heq
    obtain ⟨h1, h2⟩ := Affected.view.inj heq
    exact Prod.ext h1 h2
  · intro r r' heq
    obtain ⟨h1, h2⟩ := Affected.method.inj heq
    exact Prod.ext h1 h2
  · intro a ha b hb
    obtain ⟨r, -, rfl⟩ := List.mem_map.mp ha
    obtain ⟨r', -, rfl⟩ := List.mem_map.mp hb
    exact Affected.noConfusion
  · intro r r' heq
    exact Affected.jsPatch.inj heq
  · intro a ha b hb
    obtain ⟨r', -, rfl⟩ := List.mem_map.mp hb
    rcases List.mem_append.mp ha with ha | ha
    · obtain ⟨r, -, rfl⟩ := List.mem_map.mp ha
      exact Affected.noConfusion
    · obtain ⟨r, -, rfl⟩ := List.mem_map.mp ha
      exact Affected.noConfusion

theorem mem_affected (h : g.impact v profileName q entity = some i) {a : Affected} :
    a ∈ i.affected ↔ g.Affects v profileName entity a := by
  obtain ⟨hviews, hmethods, hpatches, -⟩ := perm_of_impact h
  unfold Impact.affected
  cases a with
  | view xmlid module =>
    rw [← mem_impactViews (r := (xmlid, module)), ← hviews.mem_iff]
    simp
  | method name module =>
    rw [← mem_impactMethods (r := (name, module)), ← hmethods.mem_iff]
    simp
  | jsPatch patch =>
    rw [← mem_impactPatches, ← hpatches.mem_iff]
    simp

theorem length_affected (i : Impact) : i.affected.length = i.total := by
  simp [Impact.affected, Impact.total, Nat.add_assoc]

end Report

end Graph

/-! ## The rating -/

/-- More of them is never less of a risk. -/
theorem computeRisk_mono {views methods patches views' methods' patches' : Nat}
    (h : views + methods + patches ≤ views' + methods' + patches') :
    (computeRisk views methods patches).rank ≤ (computeRisk views' methods' patches').rank := by
  unfold computeRisk impactRiskHighThreshold impactRiskMedThreshold
  dsimp only
  split
  · rw [if_pos (by omega)]
  · split
    · split
      · decide
      · rw [if_pos (by omega)]
    · exact Nat.zero_le _

open Graph

/-- **The report of an impact analysis**: there is one if the entity is declared, it has everything
that the entity may affect and each of it once, the modules that depend on its model, those that a
model is declared in, and a rating that does not depend on the order of the rows. -/
theorem impact_exact (g : Graph) (v : String) (profileName : Option String)
    (entity : ImpactEntity) (q : QueryOrders) :
    ((g.impact v profileName q entity).isSome = true ↔ g.Declares v profileName entity) ∧
      ∀ i ∈ g.impact v profileName q entity,
        i.affected.Nodup ∧ (∀ a, a ∈ i.affected ↔ g.Affects v profileName entity a) ∧
        (∀ name, name ∈ i.depModules ↔ g.DependsOnModel v profileName entity.modelName name) ∧
        (∀ module, module ∈ i.defModules ↔
          ∃ name, entity = .model name ∧ g.DefinesModel v profileName name module) ∧
        i.risk = (if 10 ≤ i.affected.length then .high
          else if 4 ≤ i.affected.length then .medium else .low) ∧
        ∀ q', ∃ i', g.impact v profileName q' entity = some i' ∧ i'.risk = i.risk := by
  refine ⟨impact_isSome, fun i hi => ?_⟩
  obtain ⟨hviews, hmethods, hpatches, hdepends⟩ := perm_of_impact hi
  refine ⟨nodup_affected hi, fun a => mem_affected hi, fun name => ?_,
    fun module => mem_defModules hi, ?_, fun q' => ?_⟩
  · rw [hdepends.mem_iff]
    exact mem_impactDependents
  · rw [length_affected]
    rfl
  · have hdeclared : (g.impact v profileName q' entity).isSome = true :=
      impact_isSome.mpr (impact_isSome.mp (Option.isSome_of_mem hi))
    obtain ⟨i', hi'⟩ := Option.isSome_iff_exists.mp hdeclared
    obtain ⟨hviews', hmethods', hpatches', -⟩ := perm_of_impact hi'
    refine ⟨i', hi', ?_⟩
    rw [Impact.risk, Impact.risk, hviews.length_eq, hmethods.length_eq, hpatches.length_eq,
      hviews'.length_eq, hmethods'.length_eq, hpatches'.length_eq]

/-! ## After indexing -/

section Indexed

variable (ps : List String) (rs : List ParseResult) (v : String) (profileName : Option String)

/-- Of a table with the last declarations of a list, a member is there if it is declared. -/
theorem exists_member_iff {V L : Type} {t : Store MemberKey V} {declared : List (MemberKey × L)}
    {write : L → V} {profile : V → Option (List String)} {owner name : String}
    (hlookup : ∀ {k p}, t.lookup k = some p ↔
      ∃ info, lastDeclared k declared = some info ∧ p = write info)
    (hprofile : ∀ info, profile (write info) = some (unionProfile none ps)) :
    (∃ k p, t.lookup k = some p ∧ k.name = name ∧ k.model = owner ∧ k.odooVersion = v ∧
        inProfile profileName (profile p) = true) ↔
      (∀ p ∈ profileName, p ∈ ps) ∧
        ∃ d ∈ declared, d.1.name = name ∧ d.1.model = owner ∧ d.1.odooVersion = v := by
  rw [← inProfile_written]
  constructor
  · intro h
    obtain ⟨k, p, hk, hname, hmodel, hversion, hin⟩ := h
    obtain ⟨info, hlast, rfl⟩ := hlookup.mp hk
    obtain ⟨l, hl⟩ := exists_lastDeclared.mp ⟨info, hlast⟩
    rw [hprofile] at hin
    exact ⟨hin, (k, l), hl, hname, hmodel, hversion⟩
  · intro h
    obtain ⟨hin, ⟨k, l⟩, hl, hname, hmodel, hversion⟩ := h
    obtain ⟨info, hlast⟩ := exists_lastDeclared.mpr ⟨l, hl⟩
    refine ⟨k, _, hlookup.mpr ⟨info, hlast, rfl⟩, hname, hmodel, hversion, ?_⟩
    rw [hprofile]
    exact hin

/-- **After indexing** into an empty graph, a field or a method is found if some module declares it,
and the methods of a report are the declared ones that its entity reaches, as they were declared
last. -/
theorem impact_indexed (q : QueryOrders) (owner name : String) :
    let g := writeResults ps rs {}
    ((g.impact v profileName q (.field owner name)).isSome = true ↔ (∀ p ∈ profileName, p ∈ ps) ∧
        ∃ d ∈ declaredFields rs, d.1.name = name ∧ d.1.model = owner ∧ d.1.odooVersion = v) ∧
      ((g.impact v profileName q (.method owner name)).isSome = true ↔
        (∀ p ∈ profileName, p ∈ ps) ∧
          ∃ d ∈ declaredMethods rs, d.1.name = name ∧ d.1.model = owner ∧ d.1.odooVersion = v) ∧
      ∀ entity, ∀ i ∈ g.impact v profileName q entity, ∀ r, r ∈ i.methods ↔
        (∀ p ∈ profileName, p ∈ ps) ∧ ∃ k info, lastDeclared k (declaredMethods rs) = some info ∧
          k.model = entity.modelName ∧ k.odooVersion = v ∧
          entity.Reaches k.name (MethodProps.write ps info none) ∧ (k.name, k.module) = r := by
  intro g
  refine ⟨?_, ?_, fun entity i hi r => ?_⟩
  · exact impact_isSome.trans
      (exists_member_iff ps v profileName lookup_fields_indexed fun _ => rfl)
  · exact impact_isSome.trans
      (exists_member_iff ps v profileName lookup_methods_indexed fun _ => rfl)
  obtain ⟨-, hmethods, -⟩ := perm_of_impact hi
  rw [hmethods.mem_iff, mem_impactMethods]
  constructor
  · intro h
    obtain ⟨name, module⟩ := r
    cases h with
    | @method k p hk hmodel hversion hprofile hreaches =>
      obtain ⟨info, hlast, rfl⟩ := lookup_methods_indexed.mp hk
      exact ⟨(inProfile_written ps profileName).mp hprofile, k, info, hlast, hmodel, hversion,
        hreaches, rfl⟩
  · intro h
    obtain ⟨hprofile, k, info, hlast, hmodel, hversion, hreaches, rfl⟩ := h
    have hk : g.methods.lookup k = some (MethodProps.write ps info none) :=
      lookup_methods_indexed.mpr ⟨info, hlast, rfl⟩
    exact .method hk hmodel hversion ((inProfile_written ps profileName).mpr hprofile) hreaches

end Indexed

/-! ## A member and its model -/

/-- What a member affects, its model affects, and in all profiles together. -/
theorem Graph.Affects.model {g : Graph} {v : String} {profileName profileName' : Option String}
    {entity : ImpactEntity} {a : Affected} (h : g.Affects v profileName entity a)
    (hprofile : profileName' = none ∨ profileName' = profileName) :
    g.Affects v profileName' (.model entity.modelName) a := by
  have hin : ∀ profile, inProfile profileName profile = true →
      inProfile profileName' profile = true := by
    intro profile hin
    rcases hprofile with rfl | rfl
    · rfl
    · exact hin
  cases h with
  | view hn hm htargets hp => exact .view hn hm htargets (hin _ hp)
  | method hk hmodel hversion hp _ => exact .method hk hmodel hversion (hin _ hp) trivial
  | jsPatch hk hcomp hpatches hm hbound hp =>
    exact .jsPatch hk hcomp hpatches hm hbound (hin _ hp)

/-- **Nothing is rated above its model**: whatever a field or a method may affect, in whatever
profile, its model affects too, there and in all profiles together, so that it is rated at least as
high. -/
theorem impact_rank_le {g : Graph} {v : String} {profileName profileName' : Option String}
    {entity : ImpactEntity} {q q' : QueryOrders} {i i' : Impact}
    (h : g.impact v profileName q entity = some i)
    (h' : g.impact v profileName' q' (.model entity.modelName) = some i')
    (hprofile : profileName' = none ∨ profileName' = profileName) :
    (∀ a ∈ i.affected, a ∈ i'.affected) ∧ i.total ≤ i'.total ∧ i.risk.rank ≤ i'.risk.rank := by
  have hsub : ∀ a ∈ i.affected, a ∈ i'.affected := fun a ha =>
    (mem_affected h').mpr (((mem_affected h).mp ha).model hprofile)
  have htotal : i.total ≤ i'.total := by
    rw [← length_affected, ← length_affected]
    exact (List.subperm_of_subset (nodup_affected h) hsub).length_le
  exact ⟨hsub, htotal, computeRisk_mono htotal⟩

namespace AcmeImpact

/-- Two modules with the method `action_confirm`, one of which calls `super()`. -/
def graph : Graph where
  models := (∅ : Store ModelKey ModelProps).insert ⟨"sale.order", "sale", "17.0"⟩ {}
  fields := (∅ : Store MemberKey FieldProps).insert ⟨"state", "sale.order", "sale", "17.0"⟩
    ⟨"selection", none, none, true, false, none, none⟩
  methods := ((∅ : Store MemberKey MethodProps).insert
      ⟨"action_confirm", "sale.order", "sale", "17.0"⟩
      ⟨false, [], "action", "usually", false, none, [], none⟩).insert
    ⟨"action_confirm", "sale.order", "sale_stock", "17.0"⟩
    ⟨true, [], "action", "usually", false, none, [], none⟩

def orders : QueryOrders := ⟨fun _ _ => 1⟩

theorem impact_rank_le_state : ∃ i i',
    graph.impact "17.0" none orders (.field "sale.order" "state") = some i ∧
      graph.impact "17.0" none orders (.model "sale.order") = some i' ∧
      (∀ a ∈ i.affected, a ∈ i'.affected) ∧ i.total ≤ i'.total ∧ i.risk.rank ≤ i'.risk.rank := by
  obtain ⟨i, hi⟩ := Option.isSome_iff_exists.mp
    (show (graph.impact "17.0" none orders (.field "sale.order" "state")).isSome = true by decide)
  obtain ⟨i', hi'⟩ := Option.isSome_iff_exists.mp
    (show (graph.impact "17.0" none orders (.model "sale.order")).isSome = true by decide)
  exact ⟨i, i', hi, hi', impact_rank_le hi hi' (Or.inl rfl)⟩

end AcmeImpact

end OdooSemantic
