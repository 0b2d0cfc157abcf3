import OdooSemantic.Mcp.Inspect
import OdooSemantic.Mcp.Orm

/-!
# `impact_analysis` of `src/mcp/server.py`

What may be affected by a change of a field, a method or a model: views, methods and JavaScript
patches, which are counted and rated, and the modules that depend on it, which are not. A change of a
field or a method is taken for a change of its model, but that only some of the methods are looked at.
-/

namespace OdooSemantic

open KeyedStore FlaggedEdges

inductive Risk where
  | low
  | medium
  | high
deriving DecidableEq

namespace Risk

def text : Risk → String
  | low => "LOW"
  | medium => "MEDIUM"
  | high => "HIGH"

def rank : Risk → Nat
  | low => 0
  | medium => 1
  | high => 2

end Risk

def impactRiskHighThreshold : Nat := 10

def impactRiskMedThreshold : Nat := 4

/-- `_compute_risk(view_count, method_count, js_count)` -/
def computeRisk (viewCount methodCount jsCount : Nat) : Risk :=
  let total := viewCount + methodCount + jsCount
  if impactRiskHighThreshold ≤ total then .high
  else if impactRiskMedThreshold ≤ total then .medium
  else .low

/-- `entity_type` and `entity_name`, split at its last dot. -/
inductive ImpactEntity where
  | field (model name : String)
  | method (model name : String)
  | model (name : String)
deriving DecidableEq

namespace ImpactEntity

def modelName : ImpactEntity → String
  | field owner _ => owner
  | method owner _ => owner
  | model name => name

/-- What the arguments stand for, or what is answered at once. -/
def parse (entityType entityName : String) : Except String ImpactEntity :=
  let member (of : String → String → ImpactEntity) :=
    match dottedSegments entityName with
    | [] | [_] => .error <| s!"Entity '{entityName}' not found. " ++
        s!"Expected format: '<model>.<{entityType}>' " ++
        "(e.g. 'sale.order.amount_total' for a field)."
    | segments => .ok (of (".".intercalate segments.dropLast) (segments.getLast?.getD ""))
  if entityType = "field" then member field
  else if entityType = "method" then member method
  else if entityType = "model" then .ok (model entityName)
  else .error s!"Invalid entity_type '{entityType}'. Use: field, method, model."

end ImpactEntity

example : ImpactEntity.parse "field" "sale.order.amount_total" =
    .ok (.field "sale.order" "amount_total") := by decide

structure AffectedPatch where
  target : String
  patchName : String
  module : String
  era : String
deriving DecidableEq

/-- What the queries come upon: views and methods by name and module. -/
structure Impact where
  views : List (String × String)
  methods : List (String × String)
  jsPatches : List AffectedPatch
  depModules : List String
  defModules : List String

namespace Impact

variable (i : Impact)

def total : Nat := i.views.length + i.methods.length + i.jsPatches.length

def risk : Risk := computeRisk i.views.length i.methods.length i.jsPatches.length

end Impact

namespace Graph

variable (g : Graph) (v : String) (profileName : Option String)

/-- The query that comes first: how many there are of it. -/
def impactCount : ImpactEntity → Nat
  | .field model name => (g.fieldNamed model name v profileName none).length
  | .method model name => (g.methodNamed model name v profileName).length
  | .model name => (g.models.entries.filter fun m =>
      m.1.name = name && m.1.odooVersion = v && !m.2.unresolved && m.1.module ≠ unresolvedModule &&
        inProfile profileName m.2.profile).length

/-- `(m:Model {name: $mn, odoo_version: $v})<-[:TARGETS_MODEL]-(view:View)` -/
def impactViews (model : String) : List (String × String) :=
  ((g.views.nodes.filter fun n =>
      ((g.modelsNamed model v).any fun m => (n.id, m) ∈ g.targetsModel) &&
        inProfile profileName n.profile).map fun n => (n.xmlid, n.module)).dedup

/-- The methods that are looked at, by name and module. -/
def impactMethods (entity : ImpactEntity) : List (String × String) :=
  ((g.methods.entries.filter fun m =>
      m.1.model = entity.modelName && m.1.odooVersion = v && inProfile profileName m.2.profile &&
        match entity with
        | .field _ _ => m.2.hasSuperCall
        | .method _ name => m.1.name = name
        | .model _ => true).map fun m => (m.1.name, m.1.module)).dedup

/-- `(m)<-[:BOUND_TO]-(comp:OWLComp)<-[:PATCHES]-(jp:JSPatch)` -/
def impactPatches (model : String) : List AffectedPatch :=
  ((g.jsPatches.entries.filter fun j =>
      (g.owlComps.keys.any fun comp => Linked g.patches j.1 comp &&
        (g.modelsNamed model v).any fun m => (comp, m) ∈ g.boundTo) &&
          inProfile profileName j.2.profile).map fun j =>
    ⟨j.1.target, j.1.patchName, j.1.module, j.2.era⟩).dedup

/-- `(m)-[:DEFINED_IN]->(defmod:Module)<-[:DEPENDS_ON]-(depmod:Module)` -/
def impactDependents (model : String) : List String :=
  ((g.modules.entries.filter fun dep =>
      ((g.modelsNamed model v).any fun m => g.modules.keys.any fun mod =>
        (m, mod) ∈ g.modelDefinedIn && (dep.1, mod) ∈ g.dependsOn) &&
          inProfile profileName dep.2.profile).map (·.1.name)).dedup

/-- `(m)-[:DEFINED_IN]->(mod:Module)` -/
def impactDefinitions (model : String) : List String :=
  ((g.models.entries.filter fun m =>
      m.1.name = model && m.1.odooVersion = v &&
        (g.modules.keys.any fun mod => (m.1, mod) ∈ g.modelDefinedIn) &&
          inProfile profileName m.2.profile).map (·.1.module)).dedup

variable (q : QueryOrders)

/-- What the tool finds out: `none` where there is no such entity. -/
def impact (entity : ImpactEntity) : Option Impact :=
  if g.impactCount v profileName entity = 0 then none
  else some
    { views := q.ordered 1 (fun r => toLex (r.2, r.1)) (g.impactViews v profileName entity.modelName)
      methods :=
        match entity with
        | .method _ _ => q.ordered 2 (fun r => r.2) (g.impactMethods v profileName entity)
        | _ => q.ordered 2 (fun r => toLex (r.2, r.1)) (g.impactMethods v profileName entity)
      jsPatches := q.ordered 3 (fun r => toLex (r.module, r.target))
        (g.impactPatches v profileName entity.modelName)
      depModules := q.ordered 4 id (g.impactDependents v profileName entity.modelName)
      defModules :=
        match entity with
        | .model name => q.ordered 5 id (g.impactDefinitions v profileName name)
        | _ => [] }

end Graph

/-! ## The answer -/

namespace Impact

/-- A section of the tree, or that there is nothing in it. -/
def block (label : String) (rows : List String) : List String :=
  if rows = [] then [s!"├─ {label}: none"] else s!"├─ {label} ({rows.length}):" :: renderListBlock rows

variable (i : Impact)

def methodRows : List String := i.methods.map fun m => s!"[{m.2}] {m.1}"

def methodLines : ImpactEntity → List String
  | .field model _ =>
      let label := s!"Methods on {model} with super() ({i.methods.length})" ++
        " — field-level filter not yet implemented (M5)"
      (if i.methods = [] then ["├─ " ++ label ++ ": none"]
        else ("├─ " ++ label ++ ":") :: renderListBlock i.methodRows) ++
      ["│   Note: field-level impact requires F4 USES_FIELD edge" ++
        " (deferred to M5). Current scope: model-level."]
  | .method _ _ => block "Override chain" i.methodRows
  | .model _ => block "Methods" i.methodRows

/-- `, ".join(names)`, behind how many they are. -/
def names (label : String) (names : List String) : String :=
  s!"├─ {label} ({names.length}): " ++ ", ".intercalate names

def hints (v : String) : ImpactEntity → List String
  | .method model name =>
      [s!"find_override_point(model='{model}', method='{name}', odoo_version='{v}')" ++
        " for safe extension spot"]
  | .field model name =>
      [s!"model_inspect(model='{model}', method='field', field='{name}', odoo_version='{v}')" ++
        " for field detail"]
  | .model name =>
      [s!"model_inspect(model='{name}', method='methods', odoo_version='{v}')" ++
        " for behavior surface"]

def lines (entity : ImpactEntity) (header v : String) : List String :=
  [header, "├─ Risk: " ++ i.risk.text ++ s!" ({i.total} affected entities)"] ++
  block "Views" (i.views.map fun r => s!"[{r.2}] {r.1}") ++ i.methodLines entity ++
  block "JS patches" (i.jsPatches.map fun r =>
    s!"[{r.module}] {r.target} via {r.patchName} (era: {r.era})") ++
  (if i.defModules = [] then [] else [names "Defined/extended in" i.defModules]) ++
  [if i.depModules = [] then "├─ Dependent modules: none" else names "Dependent modules" i.depModules,
    formatNextStep (hints v entity ++
      [s!"find_deprecated_usage(odoo_version='{v}') to widen for deprecated calls"])]

end Impact

/-- `_impact_analysis(entity_type, entity_name, odoo_version, profile_name)` -/
def impactAnalysis (g : Graph) (q : QueryOrders) (v : String) (profileName : Option String)
    (entityType entityName : String) : String :=
  match ImpactEntity.parse entityType entityName with
  | .error text => text
  | .ok entity =>
      match g.impact v profileName q entity with
      | none => s!"Entity '{entityName}' not found in Odoo {v}."
      | some i => "\n".intercalate
          (i.lines entity s!"impact_analysis({entityType}, {entityName}, {v})" v)

end OdooSemantic
