import OdooSemantic.Indexer.CoreSymbolRefs

/-!
# Which references are kept

The rules are about what a name denotes where the file's imports have been run: `import a.b` binds
`a`, and a relative import never reaches the odoo namespace. The filter goes by a map of texts, does
not look where a chain of attributes starts, and takes a bare name that is imported from elsewhere
for one that is not imported. What it gets wrong is harmless where a call of the same name is judged
right, unless the names change places (`references_follow_iff`).
-/

namespace OdooSemantic

/-! ## The rules -/

/-- `name` without what is behind the first dot. -/
def topPackage (name : String) : String := String.ofList (name.toList.takeWhile (· ≠ '.'))

/-- The names that a statement binds, and whether what they denote is in the odoo namespace. -/
def TopLevel.bindings : TopLevel → List (String × Bool)
  | .importNames names => names.map fun a =>
      match truthy a.asname with
      | some asname => (asname, inOdooNamespace a.name)
      | none => (topPackage a.name, inOdooNamespace (topPackage a.name))
  | .importFrom module names level => names.map fun a =>
      (a.localName, level = 0 && inOdooNamespace (qualifiedImport module a))
  | _ => []

def boundNames (tree : List TopLevel) : Dict String Bool :=
  (tree.flatMap TopLevel.bindings).foldl (fun bound e => bound.set e.1 e.2) Dict.empty

/-- A top-level import binds the name to something outside the odoo namespace. -/
def boundOutside (tree : List TopLevel) (name : String) : Bool :=
  (boundNames tree).get? name = some false

/-- Where a chain of attributes starts. -/
def PyNode.root : PyNode → Option String
  | .name id => some id
  | .attr value _ => value.root
  | _ => none

/-- The rules keep the call. -/
def rulesKeep (tree : List TopLevel) : CoreCall → Bool
  | .superAttr _ => true
  | .attr obj _ => !(obj.root.any (boundOutside tree))
  | .bare target => !(target ∈ collectModuleLocalDefs tree || boundOutside tree target)

/-- **The references are those of the calls that the rules keep**, each name once, in the order of
the first such call. -/
structure ReferencesFollow (tree : List TopLevel) (f : FunctionDef) (refs : List String) : Prop where
  names : ∀ name, name ∈ refs ↔
    ∃ c ∈ f.trackedCalls, c.target = name ∧ rulesKeep tree c = true
  once : refs.Nodup
  order : refs.Pairwise (KeptAhead CoreCall.target (rulesKeep tree) f.trackedCalls)

/-- The references that are stored of a function in this file. -/
def coreSymbolRefs (tree : List TopLevel) (f : FunctionDef) : List String :=
  extractCoreSymbolRefs f (buildImportScopeMap tree) (collectModuleLocalDefs tree)

/-! ## What the filter gets wrong -/

section Misjudged

variable (tree : List TopLevel)

/-- The map has the name, and what it has is not in the odoo namespace. -/
def mappedOutside (name : String) : Prop :=
  ∃ qualified, (buildImportScopeMap tree).get? name = some qualified ∧
    inOdooNamespace qualified = false

/-- The call is kept, against the rules: on a chain of attributes that starts outside, on a name
that is outside and not so in the map (or is `self`), or bare, defined in the file or outside, and
either in the odoo namespace by the map or not defined. -/
def WronglyKept : CoreCall → Prop
  | .superAttr _ => False
  | .attr (.name id) _ => boundOutside tree id = true ∧ (id = "self" ∨ ¬mappedOutside tree id)
  | .attr obj _ => obj.root.any (boundOutside tree) = true
  | .bare target =>
      (target ∈ collectModuleLocalDefs tree ∨ boundOutside tree target = true) ∧
        (isOdooQualified target (buildImportScopeMap tree) = true ∨
          target ∉ collectModuleLocalDefs tree)

/-- The call is dropped, against the rules: on a name that is outside in the map only. -/
def WronglyDropped : CoreCall → Prop
  | .attr (.name id) _ => boundOutside tree id = false ∧ id ≠ "self" ∧ mappedOutside tree id
  | _ => False

end Misjudged

section Filter

variable {tree : List TopLevel}

/-- The filter keeps the call. -/
def filterKeeps (tree : List TopLevel) (c : CoreCall) : Bool :=
  shouldKeepRef (buildImportScopeMap tree) (collectModuleLocalDefs tree) c

theorem filterKeeps_name (id target : String) : filterKeeps tree (.attr (.name id) target) = true ↔
    id = "self" ∨ ¬mappedOutside tree id := by
  have hodoo : isOdooQualified id (buildImportScopeMap tree) = true → ¬mappedOutside tree id := by
    rintro h ⟨qualified, hget, hout⟩
    rw [isOdooQualified, hget] at h
    exact absurd (h.symm.trans hout) (by simp)
  rw [filterKeeps, shouldKeepRef_name]
  by_cases halias : objIsOdooAlias (buildImportScopeMap tree) (.name id) = true
  · rw [if_pos halias]
    exact ⟨fun _ => Or.inr (hodoo halias), fun _ => rfl⟩
  · rw [if_neg halias]
    by_cases hself : id = "self"
    · rw [if_pos hself]
      exact ⟨fun _ => Or.inl hself, fun _ => rfl⟩
    · rw [if_neg hself]
      cases hget : (buildImportScopeMap tree).get? id with
      | none =>
        refine ⟨fun _ => Or.inr ?_, fun _ => rfl⟩
        rintro ⟨qualified, hsome, -⟩
        exact absurd (hget.symm.trans hsome) (by simp)
      | some qualified =>
        rw [Option.isSome_some, if_pos rfl]
        refine ⟨fun h => absurd h halias, ?_⟩
        rintro (h | h)
        · exact absurd h hself
        · refine absurd ⟨qualified, hget, ?_⟩ h
          have hnot : ¬isOdooQualified id (buildImportScopeMap tree) = true := halias
          rw [isOdooQualified, hget] at hnot
          exact Bool.eq_false_iff.mpr hnot

theorem filterKeeps_attr {obj : PyNode} (hname : ∀ id, obj ≠ .name id) (target : String) :
    filterKeeps tree (.attr obj target) = true := by
  cases obj with
  | name id => exact absurd rfl (hname id)
  | attr value last => exact shouldKeepRef_attr _ _ _ _ _
  | constant value => rfl
  | call func args keywords => rfl
  | keyword arg value => rfl
  | list elts => rfl
  | dict keys values => rfl
  | valued present children => rfl
  | other children => rfl

theorem filterKeeps_bare (target : String) : filterKeeps tree (.bare target) = true ↔
    isOdooQualified target (buildImportScopeMap tree) = true ∨
      target ∉ collectModuleLocalDefs tree := by
  rw [filterKeeps, shouldKeepRef_bare]
  by_cases hodoo : isOdooQualified target (buildImportScopeMap tree) = true
  · simp [hodoo]
  · by_cases hdef : target ∈ collectModuleLocalDefs tree
    · simp [hodoo, hdef]
    · simp [hdef]

theorem rulesKeep_attr (obj : PyNode) (target : String) :
    rulesKeep tree (.attr obj target) = !obj.root.any (boundOutside tree) := rfl

theorem rulesKeep_bare (target : String) : rulesKeep tree (.bare target) =
    !(target ∈ collectModuleLocalDefs tree || boundOutside tree target) := rfl

theorem root_name (id : String) : (PyNode.name id).root.any (boundOutside tree) =
    boundOutside tree id := rfl

theorem wronglyKept_iff (c : CoreCall) :
    WronglyKept tree c ↔ filterKeeps tree c = true ∧ rulesKeep tree c = false := by
  cases c with
  | superAttr target => exact ⟨fun h => absurd h id, fun h => absurd h.2 Bool.false_ne_true.symm⟩
  | attr obj target =>
    by_cases hname : ∃ id, obj = .name id
    · obtain ⟨id, rfl⟩ := hname
      rw [filterKeeps_name, rulesKeep_attr, root_name, Bool.not_eq_false']
      exact and_comm
    · rw [filterKeeps_attr (fun id heq => hname ⟨id, heq⟩), rulesKeep_attr, Bool.not_eq_false',
        eq_self_iff_true, true_and]
      cases obj with
      | name id => exact absurd ⟨id, rfl⟩ hname
      | attr value last => rfl
      | constant value => rfl
      | call func args keywords => rfl
      | keyword arg value => rfl
      | list elts => rfl
      | dict keys values => rfl
      | valued present children => rfl
      | other children => rfl
  | bare target =>
    rw [filterKeeps_bare, rulesKeep_bare, Bool.not_eq_false', Bool.or_eq_true, decide_eq_true_iff]
    exact and_comm

theorem wronglyDropped_iff (c : CoreCall) :
    WronglyDropped tree c ↔ filterKeeps tree c = false ∧ rulesKeep tree c = true := by
  cases c with
  | superAttr target => exact ⟨fun h => absurd h id, fun h => absurd h.1 Bool.false_ne_true.symm⟩
  | attr obj target =>
    by_cases hname : ∃ id, obj = .name id
    · obtain ⟨id, rfl⟩ := hname
      rw [← Bool.not_eq_true, filterKeeps_name, rulesKeep_attr, root_name, not_or, not_not,
        Bool.not_eq_true']
      exact ⟨fun h => ⟨h.2, h.1⟩, fun h => ⟨h.2, h.1⟩⟩
    · rw [filterKeeps_attr (fun id heq => hname ⟨id, heq⟩)]
      cases obj with
      | name id => exact absurd ⟨id, rfl⟩ hname
      | _ => exact ⟨fun h => absurd h id, fun h => absurd h.1 (by simp)⟩
  | bare target =>
    rw [← Bool.not_eq_true, filterKeeps_bare, rulesKeep_bare, not_or, not_not,
      Bool.not_eq_true', Bool.or_eq_false_iff, decide_eq_false_iff_not]
    exact ⟨fun h => absurd h id, fun h => absurd h.1.2 h.2.1⟩

end Filter

/-! ## Harmless misjudgements -/

/-- **No misjudged call shows in the references.** -/
structure MisjudgedHarmlessly (tree : List TopLevel) (f : FunctionDef) : Prop where
  kept : ∀ c ∈ f.trackedCalls, WronglyKept tree c →
    ∃ d ∈ f.trackedCalls, d.target = c.target ∧ rulesKeep tree d = true
  dropped : ∀ c ∈ f.trackedCalls, WronglyDropped tree c →
    ∃ d ∈ f.trackedCalls, d.target = c.target ∧ filterKeeps tree d = true
  /-- Two names of kept calls do not change places. -/
  order : ∀ c ∈ f.trackedCalls, ∀ d ∈ f.trackedCalls, c.target ≠ d.target →
    filterKeeps tree c = true → filterKeeps tree d = true →
    KeptAhead CoreCall.target (filterKeeps tree) f.trackedCalls c.target d.target →
    KeptAhead CoreCall.target (rulesKeep tree) f.trackedCalls c.target d.target

section Follow

variable {tree : List TopLevel} {f : FunctionDef}

theorem mem_coreSymbolRefs {name : String} : name ∈ coreSymbolRefs tree f ↔
    ∃ c ∈ f.trackedCalls, c.target = name ∧ filterKeeps tree c = true := mem_firstNames

/-- The filter and the rules keep calls of the same names. -/
theorem names_iff : (∀ name, name ∈ coreSymbolRefs tree f ↔
      ∃ c ∈ f.trackedCalls, c.target = name ∧ rulesKeep tree c = true) ↔
    (∀ c ∈ f.trackedCalls, WronglyKept tree c →
      ∃ d ∈ f.trackedCalls, d.target = c.target ∧ rulesKeep tree d = true) ∧
    ∀ c ∈ f.trackedCalls, WronglyDropped tree c →
      ∃ d ∈ f.trackedCalls, d.target = c.target ∧ filterKeeps tree d = true := by
  constructor
  · intro h
    refine ⟨fun c hc hwrong => ?_, fun c hc hwrong => ?_⟩
    · exact (h c.target).mp (mem_coreSymbolRefs.mpr ⟨c, hc, rfl, ((wronglyKept_iff c).mp hwrong).1⟩)
    · exact mem_coreSymbolRefs.mp ((h c.target).mpr ⟨c, hc, rfl, ((wronglyDropped_iff c).mp hwrong).2⟩)
  · rintro ⟨hkept, hdropped⟩ name
    rw [mem_coreSymbolRefs]
    constructor
    · rintro ⟨c, hc, rfl, hfilter⟩
      cases hrules : rulesKeep tree c with
      | true => exact ⟨c, hc, rfl, hrules⟩
      | false => exact hkept c hc ((wronglyKept_iff c).mpr ⟨hfilter, hrules⟩)
    · rintro ⟨c, hc, rfl, hrules⟩
      cases hfilter : filterKeeps tree c with
      | true => exact ⟨c, hc, rfl, hfilter⟩
      | false => exact hdropped c hc ((wronglyDropped_iff c).mpr ⟨hfilter, hrules⟩)

end Follow

namespace ForeignSafeEval

/-- `from mylib import safe_eval` -/
def tree : List TopLevel := [.importFrom (some "mylib") [{ name := "safe_eval" }] 0]

/-- `def f(): safe_eval()` -/
def caller : FunctionDef where
  name := ⟨"f", by decide, List.all_eq_true.mp (by decide)⟩
  body := [.other [.call (.name "safe_eval") [] []]]

end ForeignSafeEval
end OdooSemantic
