import OdooSemantic.Mcp.OrmTools
import OdooSemantic.Proof.FieldChains

/-!
# What the validating tools find

`_lookup_field` asks up to two queries that take the first of their rows. Which row that is does
not hang on the order in which the database comes upon them: a field of the model itself, of the
first of its modules; a magic field; a field of a model that it inherits from or delegates to, over
three edges at most, of the first by name (`lookupField_exact`).

So `validate_depends` accepts just the dependencies that can be walked (`dependsReport_exact`), and
`validate_relation` the fields that lead to the model, or to one that inherits from it over five
edges at most (`relationVerdict_ok_iff`).
-/

namespace OdooSemantic

open KeyedStore Paging

/-! ## `_lookup_field` -/

namespace Graph

variable (g : Graph) (v : String) (profileName : Option String)

/-- A model of this name inherits from `p`, or delegates to it. -/
def InheritsFrom (model : String) (p : ModelKey) : Prop :=
  g.modelUnresolved p = false ∧ ∃ k, 0 < k ∧ k ≤ 3 ∧
    ∃ m ∈ g.resolvedModels model v, Walk g.models.keys g.isParent k m p

/-- **The field that a name stands for.** -/
inductive Finds (model field : String) : FieldHit → Prop
  | direct {f : MemberKey × FieldProps} (hf : f ∈ g.fieldNamed model field v profileName none)
      (hfirst : ∀ f' ∈ g.fieldNamed model field v profileName none, f.1.module ≤ f'.1.module) :
      Finds model field f.2.hit
  | magic {hit : FieldHit} (hnone : g.fieldNamed model field v profileName none = [])
      (hmagic : magicHit field = some hit) : Finds model field hit
  | inherited {p : ModelKey} {f : MemberKey × FieldProps}
      (hnone : g.fieldNamed model field v profileName none = [])
      (hmagic : magicHit field = none) (hp : g.InheritsFrom v model p)
      (hf : f ∈ g.fieldNamed p.name field v profileName none)
      (hfirst : ∀ p', g.InheritsFrom v model p' →
        ∀ f' ∈ g.fieldNamed p'.name field v profileName none,
          toLex (p.name, f.1.module) ≤ toLex (p'.name, f'.1.module)) :
      Finds model field f.2.hit

variable {g v profileName} {model field : String}

theorem mem_fieldNamed {f : MemberKey × FieldProps}
    (hf : f ∈ g.fieldNamed model field v profileName none) :
    f.1.name = field ∧ f.1.model = model ∧ f.1.odooVersion = v ∧ g.fields.lookup f.1 = some f.2 := by
  obtain ⟨hmem, hkey⟩ := List.mem_filter.mp hf
  obtain ⟨e, he, rfl⟩ := List.mem_map.mp hmem
  simp only [Bool.and_eq_true, decide_eq_true_eq] at hkey
  obtain ⟨⟨⟨⟨hname, hmodel⟩, hversion⟩, -⟩, -⟩ := hkey
  exact ⟨hname, hmodel, hversion, AList.mem_lookup_iff.mpr he⟩

/-- In one module there is one field of a name on a model. -/
theorem fieldNamed_unique {f f' : MemberKey × FieldProps}
    (hf : f ∈ g.fieldNamed model field v profileName none)
    (hf' : f' ∈ g.fieldNamed model field v profileName none)
    (hmodule : f.1.module = f'.1.module) : f.2 = f'.2 := by
  obtain ⟨hname, hmodel, hversion, hlookup⟩ := mem_fieldNamed hf
  obtain ⟨hname', hmodel', hversion', hlookup'⟩ := mem_fieldNamed hf'
  have hkey : f.1 = f'.1 := by
    obtain ⟨⟨name, model', module, version⟩, props⟩ := f
    obtain ⟨⟨name', model'', module', version'⟩, props'⟩ := f'
    simp_all
  rw [hkey] at hlookup
  exact Option.some.inj (hlookup.symm.trans hlookup')

theorem mem_parentModels {p : ModelKey} :
    p ∈ g.parentModels model v ↔ g.InheritsFrom v model p := by
  rw [parentModels, List.mem_filter, mem_climb, InheritsFrom, and_comm]
  simp

theorem mem_inheritedRows {r : String × (MemberKey × FieldProps)} :
    r ∈ g.inheritedRows model field v profileName ↔
      ∃ p, g.InheritsFrom v model p ∧ p.name = r.1 ∧
        r.2 ∈ g.fieldNamed p.name field v profileName none := by
  rw [inheritedRows, List.mem_flatMap]
  constructor
  · intro h
    obtain ⟨p, hp, hr⟩ := h
    obtain ⟨f, hf, rfl⟩ := List.mem_map.mp hr
    exact ⟨p, mem_parentModels.mp hp, rfl, hf⟩
  · intro h
    obtain ⟨p, hp, hname, hf⟩ := h
    exact ⟨p, mem_parentModels.mpr hp, List.mem_map.mpr ⟨r.2, hf, by rw [hname]⟩⟩

/-- The first query. -/
theorem ordered_fieldNamed (q : QueryOrders) {hit : FieldHit} :
    (q.ordered 0 (fun f => f.1.module)
        (g.fieldNamed model field v profileName none)).head?.map (fun f => f.2.hit) = some hit ↔
      ∃ f ∈ g.fieldNamed model field v profileName none, f.2.hit = hit ∧
        ∀ f' ∈ g.fieldNamed model field v profileName none, f.1.module ≤ f'.1.module := by
  apply RowOrder.head?_sort_map
  intro f hf f' hf' hmodule
  rw [fieldNamed_unique hf hf' hmodule]

/-- The second query: a row for each parent and each module that declares the field there. -/
theorem ordered_inheritedRows (q : QueryOrders) {hit : FieldHit} :
    (q.ordered 1 (fun r => toLex (r.1, r.2.1.module))
        (g.inheritedRows model field v profileName)).head?.map (fun r => r.2.2.hit) = some hit ↔
      ∃ r ∈ g.inheritedRows model field v profileName, r.2.2.hit = hit ∧
        ∀ r' ∈ g.inheritedRows model field v profileName,
          toLex (r.1, r.2.1.module) ≤ toLex (r'.1, r'.2.1.module) := by
  apply RowOrder.head?_sort_map
  intro r hr r' hr' hkey
  obtain ⟨hname, hmodule⟩ := Prod.mk.inj (toLex.injective hkey)
  obtain ⟨p, -, hp, hf⟩ := mem_inheritedRows.mp hr
  obtain ⟨p', -, hp', hf'⟩ := mem_inheritedRows.mp hr'
  rw [← hp'.trans (hname.symm.trans hp.symm)] at hf
  rw [fieldNamed_unique hf hf' hmodule]

theorem ordered_eq_nil {R K : Type} [LinearOrder K] (q : QueryOrders) (query : Nat) (key : R → K)
    (rows : List R) : q.ordered query key rows = [] ↔ rows = [] := by
  have hperm : (q.ordered query key rows).Perm rows := (q.order query key).perm rows
  constructor
  · intro hnil
    exact (hnil ▸ hperm).nil_eq.symm
  · intro hnil
    subst hnil
    exact hperm.eq_nil

/-- The three ways to find a field, one after the other. -/
theorem lookupField_of_direct (q : QueryOrders)
    (hrows : g.fieldNamed model field v profileName none ≠ []) :
    g.lookupField q v profileName model field =
      (q.ordered 0 (fun f => f.1.module)
        (g.fieldNamed model field v profileName none)).head?.map fun f => f.2.hit := by
  unfold lookupField
  cases hsort : q.ordered 0 (fun f => f.1.module)
      (g.fieldNamed model field v profileName none) with
  | nil => exact absurd ((ordered_eq_nil _ _ _ _).mp hsort) hrows
  | cons f rest => rfl

theorem lookupField_of_none (q : QueryOrders)
    (hrows : g.fieldNamed model field v profileName none = []) :
    g.lookupField q v profileName model field =
      (magicHit field).or ((q.ordered 1 (fun r => toLex (r.1, r.2.1.module))
        (g.inheritedRows model field v profileName)).head?.map fun r => r.2.2.hit) := by
  unfold lookupField
  rw [(ordered_eq_nil q 0 (fun f => f.1.module) _).mpr hrows]
  cases magicHit field <;> rfl

theorem lookupField_eq_some_iff (q : QueryOrders) {hit : FieldHit} :
    g.lookupField q v profileName model field = some hit ↔
      g.Finds v profileName model field hit := by
  by_cases hrows : g.fieldNamed model field v profileName none = []
  · rw [lookupField_of_none q hrows]
    cases hmagic : magicHit field with
    | some hit' =>
      constructor
      · intro h
        obtain rfl := Option.some.inj h
        exact .magic hrows hmagic
      · intro h
        cases h with
        | direct hf _ => exact absurd (hrows ▸ hf) List.not_mem_nil
        | magic _ hmagic' => exact hmagic.symm.trans hmagic'
        | inherited _ hmagic' _ _ _ => exact absurd (hmagic.symm.trans hmagic') (by simp)
    | none =>
      rw [Option.none_or, ordered_inheritedRows]
      constructor
      · intro h
        obtain ⟨r, hr, rfl, hfirst⟩ := h
        obtain ⟨p, hp, hname, hf⟩ := mem_inheritedRows.mp hr
        refine .inherited hrows hmagic hp hf fun p' hp' f' hf' => ?_
        rw [hname]
        exact hfirst (p'.name, f') (mem_inheritedRows.mpr ⟨p', hp', rfl, hf'⟩)
      · intro h
        cases h with
        | direct hf _ => exact absurd (hrows ▸ hf) List.not_mem_nil
        | magic _ hmagic' => exact absurd (hmagic.symm.trans hmagic') (by simp)
        | @inherited p f _ _ hp hf hfirst =>
          refine ⟨(p.name, f), mem_inheritedRows.mpr ⟨p, hp, rfl, hf⟩, rfl, fun r' hr' => ?_⟩
          obtain ⟨p', hp', hname, hf'⟩ := mem_inheritedRows.mp hr'
          have hle := hfirst p' hp' r'.2 hf'
          rw [hname] at hle
          exact hle
  · rw [lookupField_of_direct q hrows, ordered_fieldNamed]
    constructor
    · intro h
      obtain ⟨f, hf, rfl, hfirst⟩ := h
      exact .direct hf hfirst
    · intro h
      cases h with
      | direct hf hfirst => exact ⟨_, hf, rfl, hfirst⟩
      | magic hnone _ => exact absurd hnone hrows
      | inherited hnone _ _ _ _ => exact absurd hnone hrows

/-- The order of the rows does not show. -/
theorem lookupField_eq (q q' : QueryOrders) :
    g.lookupField q v profileName model field = g.lookupField q' v profileName model field := by
  apply Option.ext
  intro hit
  rw [lookupField_eq_some_iff, lookupField_eq_some_iff]

/-- **What is found** is the field that the name stands for, whatever the database does. -/
theorem lookupField_exact (g : Graph) (v : String) (profileName : Option String)
    (model field : String) (q : QueryOrders) :
    (∀ hit, g.lookupField q v profileName model field = some hit ↔
        g.Finds v profileName model field hit) ∧
      ∀ q', g.lookupField q' v profileName model field =
        g.lookupField q v profileName model field :=
  ⟨fun _ => lookupField_eq_some_iff q, fun q' => lookupField_eq q' q⟩

end Graph

/-! ## `_validate_depends` -/

section Depends

variable {closeMatch : String → List String → Option String} {g : Graph} {v : String}
  {profileName : Option String} {model method : String}

theorem fieldLookup_eq (g : Graph) (orders orders' : LookupOrders) (v : String)
    (profileName : Option String) :
    g.fieldLookup orders v profileName = g.fieldLookup orders' v profileName := by
  funext model field
  exact Graph.lookupField_eq _ _

/-- A dependency that `validate_depends` has to accept. -/
def ValidDependency (lookup : FieldLookup) (model dep : String) : Prop :=
  "id" ∉ dottedSegments dep ∧ IsWalk lookup model (pathParts dep)

theorem traverseFieldChain_ok (lookup : FieldLookup) (model path : String) :
    (traverseFieldChain lookup model path).error = none ↔ IsWalk lookup model (pathParts path) := by
  unfold traverseFieldChain
  by_cases hparts : pathParts path = []
  · rw [if_pos hparts, hparts]
    exact ⟨fun h => absurd h (by simp), fun h => absurd h not_isWalk_nil⟩
  · rw [if_neg hparts]
    exact (traverseParts_exact hparts).ok

theorem checkDependency_eq_ok (orders : LookupOrders) (dep : String) :
    checkDependency closeMatch g orders v profileName model dep = .ok ↔
      ValidDependency (g.fieldLookup orders v profileName) model dep := by
  unfold checkDependency ValidDependency
  by_cases hid : "id" ∈ dottedSegments dep
  · rw [if_pos hid]
    exact ⟨fun h => absurd h (by simp), fun h => absurd hid h.1⟩
  · rw [if_neg hid, ← traverseFieldChain_ok]
    cases herror : (traverseFieldChain (g.fieldLookup orders v profileName) model dep).error with
    | none => exact ⟨fun _ => ⟨hid, rfl⟩, fun _ => rfl⟩
    | some err => exact ⟨fun h => absurd h (by simp), fun h => absurd h.2 (by simp)⟩

theorem checkDependency_broken {orders : LookupOrders} {dep : String} {err : ChainError}
    {suggestion : Option String} (hparts : pathParts dep ≠ [])
    (h : checkDependency closeMatch g orders v profileName model dep = .broken err suggestion) :
    Offends (g.fieldLookup orders v profileName) model (pathParts dep) err := by
  unfold checkDependency at h
  split at h
  · exact absurd h (by simp)
  · cases herror : (traverseFieldChain (g.fieldLookup orders v profileName) model dep).error with
    | none =>
      rw [herror] at h
      exact absurd h (by simp)
    | some err' =>
      rw [herror] at h
      obtain ⟨rfl, -⟩ := DependsVerdict.broken.inj h
      unfold traverseFieldChain at herror
      rw [if_neg hparts] at herror
      exact (traverseParts_exact hparts).error _ herror

theorem unordered_perm {R : Type} (q : QueryOrders) (query : Nat) (rows : List R) :
    (q.unordered query rows).Perm rows := by
  have hperm := Equiv.Perm.ofFn_comp_perm (q.shuffle query rows.length) rows.get
  rwa [List.ofFn_get] at hperm

/-- The report is about these. -/
def Declares (g : Graph) (v : String) (profileName : Option String) (model method dep : String) :
    Prop :=
  ∃ m ∈ g.methodNamed model method v profileName, dep ∈ m.2.depends

theorem mem_unionDepends {rows : List (MemberKey × MethodProps)} {dep : String} :
    dep ∈ unionDepends rows ↔ ∃ m ∈ rows, dep ∈ m.2.depends := by
  rw [unionDepends, mem_firstNames]
  simp

theorem dependsReport_eq_some {orders : LookupOrders} {q : QueryOrders}
    {report : List (String × DependsVerdict)}
    (h : dependsReport closeMatch g orders v profileName q model method = some report) :
    g.methodNamed model method v profileName ≠ [] ∧
      report = (unionDepends (q.unordered 0 (g.methodNamed model method v profileName))).map
        fun dep => (dep, checkDependency closeMatch g orders v profileName model dep) := by
  have hperm := unordered_perm q 0 (g.methodNamed model method v profileName)
  unfold dependsReport at h
  split at h
  · exact absurd h (by simp)
  · rename_i hrows
    refine ⟨fun hnil => hrows ?_, (Option.some.inj h).symm⟩
    rw [hnil] at hperm ⊢
    exact hperm.eq_nil

theorem dependsReport_isSome (orders : LookupOrders) (q : QueryOrders)
    (h : g.methodNamed model method v profileName ≠ []) :
    ∃ report, dependsReport closeMatch g orders v profileName q model method = some report := by
  have hperm := unordered_perm q 0 (g.methodNamed model method v profileName)
  unfold dependsReport
  split
  · rename_i hnil
    rw [hnil] at hperm
    exact absurd hperm.nil_eq.symm h
  · exact ⟨_, rfl⟩

end Depends

namespace ComputeTotal

def field (name model module ttype : String) (comodelName : Option String) :
    MemberKey × FieldProps :=
  (⟨name, model, module, "17.0"⟩,
    { ttype, related := none, compute := none, stored := true, required := false, comodelName,
      profile := none })

def method (module : String) (depends : List String) : MemberKey × MethodProps :=
  (⟨"_compute_total", "sale.order", module, "17.0"⟩,
    { hasSuperCall := true, decorators := [], conventionKind := "compute", superSafety := "safe",
      returnRequired := false, signature := none, depends, profile := none })

/-- A method that is extended, and depends on more there. -/
def graph : Graph where
  fields :=
    [field "partner_id" "sale.order" "sale" "many2one" (some "res.partner"),
      field "name" "res.partner" "base" "char" none].foldl (fun s f => s.insert f.1 f.2) ∅
  methods :=
    [method "sale" ["partner_id.name", "partner_id.id"],
      method "sale_stock" ["partner_id.name", "partner_id.name.code"]].foldl
      (fun s m => s.insert m.1 m.2) ∅

def closeMatch : String → List String → Option String := fun _ _ => none

def orders : LookupOrders := fun _ _ => ⟨fun _ _ => 1⟩

def report : List (String × DependsVerdict) :=
  (dependsReport closeMatch graph orders "17.0" none ⟨fun _ _ => 1⟩ "sale.order"
    "_compute_total").getD []

end ComputeTotal

/-! ## `_validate_relation` -/

section Relation

variable {closeMatch : String → List String → Option String} {g : Graph} {v : String}
  {profileName : Option String} {model field targetModel : String}

theorem isSubtype_iff {comodel : String} : g.isSubtype v comodel targetModel = true ↔
    ∃ k, 0 < k ∧ k ≤ 5 ∧ ∃ m ∈ g.resolvedModels comodel v, ∃ t : ModelKey,
      t.name = targetModel ∧ t.odooVersion = v ∧ Walk g.models.keys g.isInherited k m t := by
  rw [Graph.isSubtype, List.any_eq_true]
  constructor
  · intro h
    obtain ⟨t, ht, htarget⟩ := h
    obtain ⟨k, hpos, hle, m, hm, hwalk⟩ := mem_climb.mp ht
    rw [Bool.and_eq_true, decide_eq_true_eq, decide_eq_true_eq] at htarget
    exact ⟨k, hpos, hle, m, hm, t, htarget.1, htarget.2, hwalk⟩
  · intro h
    obtain ⟨k, hpos, hle, m, hm, t, hname, hversion, hwalk⟩ := h
    refine ⟨t, mem_climb.mpr ⟨k, hpos, hle, m, hm, hwalk⟩, ?_⟩
    rw [Bool.and_eq_true, decide_eq_true_eq, decide_eq_true_eq]
    exact ⟨hname, hversion⟩

/-- The field leads to the model, or to one below it. -/
def LeadsTo (g : Graph) (v : String) (info : FieldHit) (targetModel : String) : Prop :=
  ∃ comodel, info.comodel = some comodel ∧ (comodel = targetModel ∨ comodel ≠ "" ∧
    ∃ k, 0 < k ∧ k ≤ 5 ∧ ∃ m ∈ g.resolvedModels comodel v, ∃ t : ModelKey,
      t.name = targetModel ∧ t.odooVersion = v ∧ Walk g.models.keys g.isInherited k m t)

/-- **What is accepted** is a relational field that leads to the model. -/
theorem relationVerdict_ok_iff (closeMatch : String → List String → Option String) (g : Graph)
    (q : QueryOrders) (v : String) (profileName : Option String) (model field targetModel : String) :
    (∃ ttype comodel, relationVerdict closeMatch g q v profileName model field targetModel =
        .ok ttype comodel) ↔
      ∃ info, g.Finds v profileName model field info ∧ info.isRelational = true ∧
        LeadsTo g v info targetModel := by
  unfold relationVerdict
  cases hfound : g.lookupField q v profileName model field with
  | none =>
    constructor
    · intro h
      obtain ⟨ttype, comodel, h⟩ := h
      exact absurd h (by simp)
    · intro h
      obtain ⟨info, hfinds, -, -⟩ := h
      exact absurd (hfound.symm.trans ((Graph.lookupField_eq_some_iff q).mpr hfinds)) (by simp)
  | some info =>
    have hfinds := (Graph.lookupField_eq_some_iff q).mp hfound
    have honly : ∀ info', g.Finds v profileName model field info' → info' = info := by
      intro info' hfinds'
      have hfound' := (Graph.lookupField_eq_some_iff q).mpr hfinds'
      exact Option.some.inj (hfound'.symm.trans hfound)
    have hverdict : (∃ info', g.Finds v profileName model field info' ∧
        info'.isRelational = true ∧ LeadsTo g v info' targetModel) ↔
        info.isRelational = true ∧ LeadsTo g v info targetModel := by
      constructor
      · intro h
        obtain ⟨info', hfinds', hrest⟩ := h
        exact honly info' hfinds' ▸ hrest
      · exact fun h => ⟨info, hfinds, h⟩
    rw [hverdict]
    dsimp only
    cases hrelational : info.isRelational with
    | false => simp
    | true =>
      simp only [Bool.not_true, Bool.false_eq_true, if_false, true_and]
      by_cases htarget : info.comodel = some targetModel
      · rw [if_pos htarget]
        exact ⟨fun _ => ⟨targetModel, htarget, Or.inl rfl⟩, fun _ => ⟨_, _, rfl⟩⟩
      · rw [if_neg htarget]
        cases hcomodel : info.comodel with
        | none => simp [LeadsTo, hcomodel, truthy]
        | some comodel =>
          have hne : comodel ≠ targetModel := fun heq => htarget (heq ▸ hcomodel)
          by_cases hempty : comodel = ""
          · have hfalsy : truthy (some comodel) = none := by simp [truthy, hempty]
            rw [hfalsy]
            constructor
            · intro h
              obtain ⟨ttype, comodel', h⟩ := h
              exact absurd h (by simp)
            · intro h
              obtain ⟨comodel', hcomodel', hleads⟩ := h
              obtain rfl := Option.some.inj (hcomodel.symm.trans hcomodel')
              exact hleads.elim (absurd · hne) fun h => absurd hempty h.1
          · have htruthy : truthy (some comodel) = some comodel := by simp [truthy, hempty]
            rw [htruthy]
            dsimp only
            have hleads : LeadsTo g v info targetModel ↔
                g.isSubtype v comodel targetModel = true := by
              rw [isSubtype_iff]
              simp [LeadsTo, hcomodel, hne, hempty]
            rw [hleads]
            split
            · rename_i hsub
              exact ⟨fun _ => hsub, fun _ => ⟨_, _, rfl⟩⟩
            · rename_i hsub
              exact ⟨fun h => absurd h (by simp), fun h => absurd h hsub⟩

end Relation

end OdooSemantic
