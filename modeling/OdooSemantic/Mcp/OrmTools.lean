import OdooSemantic.Lib.FirstNames
import OdooSemantic.Lib.LevelOrder
import OdooSemantic.Mcp.Inspect
import OdooSemantic.Mcp.Orm

/-!
# `src/mcp/orm.py` — the tools that validate

How a field is found on a model, and two of the tools that ask for it: `validate_depends` and
`validate_relation`. Each query comes upon its rows in an order of its own.

`difflib.get_close_matches`, which only makes a suggestion, is a parameter.
-/

namespace OdooSemantic

open KeyedStore FlaggedEdges

/-! ## `_lookup_field` -/

/-- The comodels in `MAGIC_FIELDS`. -/
def magicComodels : List (String × String) :=
  [("create_uid", "res.users"), ("write_uid", "res.users")]

/-- `MAGIC_FIELDS[field]` -/
def magicHit (field : String) : Option FieldHit :=
  (magicFields.lookup field).map fun ttype => ⟨some ttype, magicComodels.lookup field⟩

namespace Graph

variable (g : Graph)

/-- `(a)-[:INHERITS]->(b)` -/
def isInherited (a b : ModelKey) : Bool := Linked g.inherits a b

/-- `(a)-[:INHERITS|DELEGATES_TO]->(b)` -/
def isParent (a b : ModelKey) : Bool :=
  g.isInherited a b || g.delegatesTo.keys.any fun e => e.1 = a && e.2.1.1 = b

/-- The models that `[:INHERITS|DELEGATES_TO*1..3]` leads to. -/
def parentModels (model v : String) : List ModelKey :=
  (climb g.models.keys g.isParent 3 (g.resolvedModels model v)).filter fun p =>
    !g.modelUnresolved p

/-- Their fields of that name. -/
def inheritedRows (model field v : String) (profileName : Option String) :
    List (String × (MemberKey × FieldProps)) :=
  (g.parentModels model v).flatMap fun p =>
    (g.fieldNamed p.name field v profileName none).map fun f => (p.name, f)

end Graph

def FieldProps.hit (p : FieldProps) : FieldHit := ⟨some p.ttype, p.comodelName⟩

namespace Graph

variable (g : Graph)

/-- `_lookup_field(model, field, odoo_version, session, profile_name)` -/
def lookupField (q : QueryOrders) (v : String) (profileName : Option String)
    (model field : String) : Option FieldHit :=
  match q.ordered 0 (fun f => f.1.module) (g.fieldNamed model field v profileName none) with
  | f :: _ => some f.2.hit
  | [] =>
      match magicHit field with
      | some hit => some hit
      | none =>
          ((q.ordered 1 (fun r => toLex (r.1, r.2.1.module))
            (g.inheritedRows model field v profileName)).head?).map fun r => r.2.2.hit

/-- `_field_names_on_model(model, odoo_version, session, profile_name)`, sorted -/
def fieldNamesOnModel (model v : String) (profileName : Option String) : List String :=
  ((((g.fields.entries.map fun e => (e.1, e.2)).filter fun f =>
      f.1.model = model && f.1.odooVersion = v && inProfile profileName f.2.profile).map (·.1.name) ++
    magicFields.map (·.1)).dedup).insertionSort (· ≤ ·)

end Graph

/-- What the database makes of the queries of one call: an order for each query, by the model and
    the field it asks for. -/
abbrev LookupOrders := String → String → QueryOrders

/-- The look-ups of one call. -/
def Graph.fieldLookup (g : Graph) (orders : LookupOrders) (v : String)
    (profileName : Option String) : FieldLookup :=
  fun model field => g.lookupField (orders model field) v profileName model field

/-! ## `_validate_depends` -/

inductive DependsVerdict where
  | ok
  /-- "cannot depend on 'id'" -/
  | onId
  | broken (err : ChainError) (suggestion : Option String)
deriving DecidableEq

/-- `dep : ` … -/
def DependsVerdict.text : DependsVerdict → String
  | ok => "OK"
  | onId => "ERROR cannot depend on 'id' (Odoo raises NotImplementedError)"
  | broken err suggestion =>
      "ERROR " ++ brokenReasonText err ++
        ((suggestion.map fun hint => s!" — did you mean '{hint}'?").getD "")

section Depends

-- `difflib.get_close_matches(name, candidates, n=1, cutoff=0.7)`
variable (closeMatch : String → List String → Option String)
variable (g : Graph) (orders : LookupOrders) (v : String) (profileName : Option String)

/-- One turn of `for dep in deps`. -/
def checkDependency (model dep : String) : DependsVerdict :=
  if "id" ∈ dottedSegments dep then .onId
  else
    match (traverseFieldChain (g.fieldLookup orders v profileName) model dep).error with
    | none => .ok
    | some err =>
        .broken err <|
          if err.reason = .missing then
            valueOrNone (closeMatch err.field (g.fieldNamesOnModel err.model v profileName))
          else none

/-- `seen`: what the declarations of the method depend on, each once. -/
def unionDepends (rows : List (MemberKey × MethodProps)) : List String :=
  firstNames id (fun _ => true) (rows.flatMap fun m => m.2.depends)

/-- What the tool finds out: `none` where there is no such method. -/
def dependsReport (q : QueryOrders) (model method : String) :
    Option (List (String × DependsVerdict)) :=
  match q.unordered 0 (g.methodNamed model method v profileName) with
  | [] => none
  | rows => some ((unionDepends rows).map fun dep =>
      (dep, checkDependency closeMatch g orders v profileName model dep))

/-- `hints_for("validate_depends", name=model, ver=version)` -/
def dependsHints (model v : String) : String :=
  formatNextStep
    [s!"resolve_orm_chain(model='{model}', dotted_path='<dependency path>'" ++
        s!", odoo_version='{v}') to debug one dependency",
      s!"model_inspect(model='{model}', method='fields', odoo_version='{v}') to list valid fields"]

/-- `_validate_depends(model, method, odoo_version, profile_name)` -/
def validateDepends (q : QueryOrders) (model method : String) : String :=
  let header := s!"@api.depends on {model}.{method} (Odoo {v})"
  match dependsReport closeMatch g orders v profileName q model method with
  | none => s!"Method '{method}' not found on model '{model}' in Odoo {v}."
  | some [] => "\n".intercalate
      [header, "├─ no @api.depends found — method is not a computed-field" ++
        " dependency (or era1 v8/v9 uses store= triggers, not the decorator)", dependsHints model v]
  | some report =>
      let errors := report.countP fun line => line.2 ≠ .ok
      let verdict := if errors = 0 then "all dependencies valid" else s!"{errors} invalid"
      "\n".intercalate <|
        [header ++ " — " ++ verdict] ++
        (report.map fun line => s!"├─ '{line.1}' : " ++ line.2.text) ++ [dependsHints model v]

end Depends

/-! ## `_validate_relation` -/

inductive RelationVerdict where
  | missing (suggestion : Option String)
  | notRelational (ttype : Option String)
  | ok (ttype comodel : Option String)
  | mismatch (ttype comodel : Option String)
deriving DecidableEq

section Relation

variable (closeMatch : String → List String → Option String)
variable (g : Graph) (q : QueryOrders) (v : String) (profileName : Option String)

/-- `MATCH (c)-[:INHERITS*1..5]->(t:Model {name: $target, odoo_version: $v})` -/
def Graph.isSubtype (comodel target : String) : Bool :=
  (climb g.models.keys g.isInherited 5 (g.resolvedModels comodel v)).any fun t =>
    t.name = target && t.odooVersion = v

/-- What the tool finds out. -/
def relationVerdict (model field targetModel : String) : RelationVerdict :=
  match g.lookupField q v profileName model field with
  | none => .missing (valueOrNone (closeMatch field (g.fieldNamesOnModel model v profileName)))
  | some info =>
      if !info.isRelational then .notRelational info.ttype
      else if info.comodel = some targetModel then .ok info.ttype info.comodel
      else
        match truthy info.comodel with
        | none => .mismatch info.ttype info.comodel
        | some actual =>
            if g.isSubtype v actual targetModel then .ok info.ttype info.comodel
            else .mismatch info.ttype info.comodel

/-- `_validate_relation(model, field, target_model, odoo_version, profile_name)` -/
def validateRelation (model field targetModel : String) : String :=
  let header := s!"Relation check: {model}.{field} -> {targetModel} (Odoo {v})"
  let footer := formatNextStep
    [s!"entity_lookup(kind='field', model='{model}', field='{field}'" ++
        s!", odoo_version='{v}') for field detail",
      s!"model_inspect(model='{model}', method='fields', odoo_version='{v}')" ++
        " to list relational fields"]
  let shown (value : Option String) := value.getD "None"
  match relationVerdict closeMatch g q v profileName model field targetModel with
  | .missing suggestion =>
      let tail := (suggestion.map fun hint => s!" — did you mean '{hint}'?").getD ""
      "\n".intercalate [header, s!"└─ ERROR field '{field}' not found on {model}" ++ tail]
  | .notRelational ttype => "\n".intercalate
      [header, s!"├─ MISMATCH {field} is type '" ++ shown ttype ++ "', not a relational field", footer]
  | .ok ttype comodel => "\n".intercalate
      [header, s!"├─ OK {field} is " ++ shown ttype ++ " -> " ++ shown comodel, footer]
  | .mismatch ttype comodel => "\n".intercalate
      [header, s!"├─ MISMATCH {field} is " ++ shown ttype ++ " -> " ++
        textOr comodel "(no comodel recorded)" ++ s!" (expected {targetModel})", footer]

end Relation

end OdooSemantic
