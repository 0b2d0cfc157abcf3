import Mathlib.Algebra.GroupWithZero.Nat
import Mathlib.Data.Fin.Tuple.Sort
import OdooSemantic.Mcp.Listings
import OdooSemantic.Mcp.Session

/-!
# `src/mcp/inspect.py` — reading the graph, and the session of the reader

`model_inspect`, `module_inspect` and `entity_lookup` send a call on to one of the functions of
`server.py`: a listing, or a tree about one model, field, method, view or module. Each of these
works out the version of the call for itself, with the help of the session of the key. The profile
it takes from the call.

`entity_lookup(kind='pattern')` asks the embeddings and not the graph, and is left out.
-/

namespace OdooSemantic

open KeyedStore Paging Threads

/-! ## Queries -/

/-- In which order each query of a call comes upon its rows. -/
structure QueryOrders where
  shuffle : Nat → (n : Nat) → Equiv.Perm (Fin n)

namespace QueryOrders

variable (q : QueryOrders) (query : Nat) {R K : Type} [LinearOrder K]

/-- The rows of a query that does not sort them. -/
def unordered (rows : List R) : List R := List.ofFn (rows.get ∘ q.shuffle query rows.length)

/-- `ORDER BY` -/
def order (key : R → K) : RowOrder key where
  sort rows := (q.unordered query rows).insertionSort fun a b => key a ≤ key b
  perm rows := by
    refine (List.perm_insertionSort _ _).trans ?_
    refine (Equiv.Perm.ofFn_comp_perm _ _).trans ?_
    rw [List.ofFn_get]
  sorted rows := List.pairwise_insertionSort _ _

def ordered (key : R → K) (rows : List R) : List R := (q.order query key).sort rows

end QueryOrders

/-- A declaration in a module, and what ranks it. -/
structure Declaration (P : Type) where
  props : P
  module : String
  repo : Option String
  isDefRank : Nat
  fieldCount : Nat
  dependents : Nat
  editionRank : Nat
  modName : Option String

/-- `ORDER BY is_def_rank ASC, field_count DESC, dependents DESC, edition_rank ASC, mod_name ASC` -/
def Declaration.key {P : Type} (d : Declaration P) : ℕ ×ₗ ℕᵒᵈ ×ₗ ℕᵒᵈ ×ₗ ℕ ×ₗ WithTop String :=
  toLex (d.isDefRank, toLex (OrderDual.toDual d.fieldCount, toLex (OrderDual.toDual d.dependents,
    toLex (d.editionRank, d.modName))))

/-- The number of a version such as `17.0`. -/
def versionNumber (v : String) : Option (ℕ × ℕ) :=
  let number (cs : List Char) := cs.foldl (fun n c => 10 * n + (c.toNat - 48)) 0
  match v.toList.splitOn '.' with
  | [major, minor] =>
      if major ≠ [] ∧ minor ≠ [] ∧ major.all Char.isDigit ∧ minor.all Char.isDigit then
        some (number major, number minor)
      else none
  | _ => none

namespace Graph

variable (g : Graph)

/-- The versions of the modules, but for those that are no versions. -/
def indexedVersions (q : QueryOrders) : List String :=
  q.ordered 0
    (fun v => match versionNumber v with
      | some (major, minor) => toLex (OrderDual.toDual major, OrderDual.toDual minor)
      | none => toLex (OrderDual.toDual 0, OrderDual.toDual 0))
    ((g.modules.keys.map (·.odooVersion)).dedup.filter fun v => (versionNumber v).isSome)

/-- `_latest_version(session)` -/
def latestVersion (q : QueryOrders) : Option String := (g.indexedVersions q).head?

def declaration {P : Type} (model v module : String) (node : Option ModelProps)
    (mod : Option ModuleKey) (props : P) : Declaration P where
  props := props
  module := module
  repo := mod.bind fun k => (g.modules.lookup k).bind (·.repo)
  isDefRank := if node.bind (·.isDefinition) = some true then 0 else 1
  fieldCount := g.fields.keys.countP fun k =>
    k.model = model && k.module = module && k.odooVersion = v
  dependents := (g.dependsOn.filter fun e => some e.2 = mod).card
  editionRank := editionRank (mod.bind fun k => (g.modules.lookup k).bind (·.edition))
  modName := mod.map (·.name)

/-- The declaration of a member. -/
def memberDeclaration {P : Type} (member : MemberKey × P) : Declaration P :=
  let k := member.1
  g.declaration k.model k.odooVersion k.module (g.models.lookup ⟨k.model, k.module, k.odooVersion⟩)
    (if ⟨k.module, k.odooVersion⟩ ∈ g.modules then some ⟨k.module, k.odooVersion⟩ else none)
    member.2

/-! What the queries match. -/

def layersOf (model v : String) (profileName fromModule : Option String) :
    List ((ModelKey × ModelProps) × ModuleKey) :=
  (g.models.entries.flatMap fun m =>
      (g.modules.keys.filter fun mod => (m.1, mod) ∈ g.modelDefinedIn).map fun mod =>
        ((m.1, m.2), mod)).filter fun l =>
    l.1.1.name = model && l.1.1.odooVersion = v && inProfile profileName l.1.2.profile &&
      matchesParam fromModule l.1.1.module

def fieldNamed (model name v : String) (profileName fromModule : Option String) :
    List (MemberKey × FieldProps) :=
  (g.fields.entries.map fun e => (e.1, e.2)).filter fun f =>
    f.1.name = name && f.1.model = model && f.1.odooVersion = v &&
      inProfile profileName f.2.profile && matchesParam fromModule f.1.module

def methodNamed (model name v : String) (profileName : Option String) :
    List (MemberKey × MethodProps) :=
  (g.methods.entries.map fun e => (e.1, e.2)).filter fun m =>
    m.1.name = name && m.1.model = model && m.1.odooVersion = v && inProfile profileName m.2.profile

def viewNamed (xmlid v : String) (profileName : Option String) : List (XmlNode ViewProps) :=
  g.views.nodes.filter fun n => n.At xmlid v && inProfile profileName n.profile

/-- The views that inherit from it, each as often as it does. -/
def extensionsOf (xmlid v : String) (profileName : Option String) : List (XmlNode ViewProps) :=
  (g.views.nodes.flatMap fun ext =>
      (g.views.matching xmlid v).flatMap fun n =>
        ([true, false].filter fun flag => (ext.id, n.id, flag) ∈ g.views.links).map fun _ =>
          ext).filter fun ext =>
    ext.odooVersion = v && !ext.unresolved && inProfile profileName ext.profile

def moduleNamed (name v : String) (profileName : Option String) : Option ModuleProps :=
  (g.modules.lookup ⟨name, v⟩).filter fun m => inProfile profileName m.profile

/-- The models that a module defines, or that it extends. -/
def modelsIn (module v : String) (defined : Bool) (profileName : Option String) :
    List (ModelKey × ModelProps) :=
  (g.models.entries.map fun e => (e.1, e.2)).filter fun m =>
    m.1.module = module && m.1.odooVersion = v && m.2.isDefinition.getD false = defined &&
      m.1.module ≠ unresolvedModule && inProfile profileName m.2.profile

def viewsIn (module v : String) (profileName : Option String) : List (XmlNode ViewProps) :=
  g.views.nodes.filter fun n =>
    n.module = module && n.odooVersion = v && inProfile profileName n.profile

def patchesIn (module v : String) (profileName : Option String) :
    List (JSPatchKey × JSPatchProps) :=
  (g.jsPatches.entries.map fun e => (e.1, e.2)).filter fun j =>
    j.1.module = module && j.1.odooVersion = v && inProfile profileName j.2.profile

/-! What they do not ask a profile of. -/

/-- `RETURN DISTINCT p.name`, of those that a model inherits from. -/
def parentNames (model v : String) : List String :=
  ((g.models.keys.filter fun p => p.name ≠ model ∧
      ∃ m ∈ g.modelsNamed model v, (m, p, false) ∈ g.inherits).map (·.name)).dedup

/-- `OPTIONAL MATCH (v)-[:DEFINED_IN]->(mod:Module)` -/
def withModules (n : XmlNode ViewProps) : List (XmlNode ViewProps × Option ModuleKey) :=
  let mods := g.modules.keys.filter fun mod => (n.id, mod) ∈ g.viewDefinedIn
  (if mods = [] then [none] else mods.map some).map fun mod => (n, mod)

def parentViews (n : XmlNode ViewProps) : List (XmlNode ViewProps) :=
  g.views.nodes.filter fun parent =>
    parent.odooVersion = n.odooVersion ∧ (n.id, parent.id, false) ∈ g.views.links

def dependsOf (k : ModuleKey) : List String :=
  (g.modules.keys.filter fun d => (k, d) ∈ g.dependsOn).map (·.name)

def repoOf (mod : Option ModuleKey) : Option String :=
  mod.bind fun k => (g.modules.lookup k).bind (·.repo)

end Graph

/-! ## Trees -/

/-- `f"[{repo}] " if repo else ""` -/
def repoTag (repo : Option String) : String := ((valueOrNone repo).map fun r => s!"[{r}] ").getD ""

/-- `Yes` or `No` -/
def yesNo (b : Bool) : String := if b then "Yes" else "No"

/-- `, ".join(names[:20])`, and how many more there are. -/
def cappedNames (names : List String) (hint : String) : String :=
  ", ".intercalate (names.take listPreviewMaxItems) ++
    if listPreviewMaxItems < names.length then
      s!", ... and {names.length - listPreviewMaxItems} more" ++ hint
    else ""

namespace Graph

variable (g : Graph) (q : QueryOrders)

/-- `_resolve_model(model_name, odoo_version, profile_name, from_module)` -/
def resolveModel (model v : String) (profileName fromModule : Option String) : String :=
  let layers := q.ordered 0 Declaration.key <| (g.layersOf model v profileName fromModule).map fun l =>
    g.declaration model v l.1.1.module (some l.1.2) (some l.2) ()
  let filter := valueOrNone fromModule
  match layers with
  | [] =>
      match filter with
      | some m => s!"Model '{model}' not found in module '{m}' (Odoo {v})."
      | none => s!"Model '{model}' not found in Odoo {v}."
  | base :: extensions =>
      let shown (d : Declaration Unit) := "[" ++ d.repo.getD "None" ++ "] " ++ d.module
      let parents := q.ordered 1 id (g.parentNames model v)
      let members (keys : List MemberKey) :=
        keys.countP fun k => k.model = model && k.odooVersion = v
      let fieldsCount := members g.fields.keys
      let methodsCount := members g.methods.keys
      let fields := PrintedCall.modelInspect model "fields" v 0
      let methods := PrintedCall.modelInspect model "methods" v 0
      "\n".intercalate <|
        [s!"{model} (Odoo {v})"] ++ (filter.toList.map fun m => s!"├─ filter: from_module={m}") ++
        ["├─ Defined in:     " ++ shown base] ++
        (if parents = [] then [] else ["├─ Inherits from:  " ++ ", ".intercalate parents]) ++
        (if extensions = [] then []
          else "├─ Extended by:" :: renderListBlock (renderCapped extensions shown
            listPreviewMaxItems (fields.hint "for full overview"))) ++
        [s!"├─ Fields:         {fieldsCount}", s!"├─ Methods:        {methodsCount}",
          formatNextStep [fields.hint "for full field list", methods.hint "for behavior"]]

/-- The last line about a field, a method or a view. -/
def fieldHints (model field v : String) : String :=
  formatNextStep
    [s!"find_examples(query='{model}.{field} usage', odoo_version='{v}') for real-world patterns",
      s!"impact_analysis(entity_type='field', entity_name='{model}.{field}'" ++
        s!", odoo_version='{v}') for blast radius"]

/-- `_resolve_field(model_name, field_name, odoo_version, profile_name, from_module)` -/
def resolveField (model field v : String) (profileName fromModule : Option String) : String :=
  let records := q.ordered 0 Declaration.key <|
    (g.fieldNamed model field v profileName fromModule).map g.memberDeclaration
  match records with
  | [] =>
      match if fromModule = none then magicFields.lookup field else none with
      | some ttype => "\n".intercalate
          [s!"{model}.{field} (Odoo {v})", s!"├─ Type:     {ttype}", "├─ Computed: No",
            "├─ Stored:   Yes", "├─ Required: No", "├─ Related:  —", "├─ Declared in:",
            "│   └─ <builtin>  [ORM magic field — injected at runtime, not in source]",
            fieldHints model field v]
      | none => s!"Field '{field}' not found on model '{model}' in Odoo {v}."
  | base :: _ =>
      let compute := valueOrNone base.props.compute
      "\n".intercalate <|
        [s!"{model}.{field} (Odoo {v})", s!"├─ Type:     {base.props.ttype}",
          "├─ Computed: " ++ yesNo compute.isSome ++ ((compute.map fun c => s!" ({c})").getD ""),
          "├─ Stored:   " ++ yesNo base.props.stored, "├─ Required: " ++ yesNo base.props.required,
          "├─ Related:  " ++ textOr base.props.related "—", "├─ Declared in:"] ++
        renderListBlock (records.map fun d => repoTag d.repo ++ d.module) ++
        [fieldHints model field v]

/-- `_resolve_method(model_name, method_name, odoo_version, profile_name)` -/
def resolveMethod (model name v : String) (profileName : Option String) : String :=
  let records := q.ordered 0 Declaration.key <|
    (g.methodNamed model name v profileName).map g.memberDeclaration
  if records = [] then s!"Method '{name}' not found on model '{model}' in Odoo {v}."
  else
    "\n".intercalate <|
      [s!"{model}.{name}() (Odoo {v})", s!"├─ Override chain ({records.length}):"] ++
      renderListBlock (records.map fun d => repoTag d.repo ++ d.module ++ " — " ++
        (if d.props.hasSuperCall then "✓ calls super()" else "✗ no super()") ++
        " — decorators: " ++
        (if d.props.decorators = [] then "—" else ", ".intercalate d.props.decorators)) ++
      [formatNextStep
        [s!"find_override_point(model='{model}', method='{name}', odoo_version='{v}')" ++
            " for safe hook spot",
          s!"impact_analysis(entity_type='method', entity_name='{model}.{name}'" ++
            s!", odoo_version='{v}') for blast radius"]]

/-- The lines for the views that extend one. -/
def extensionLines (xmlid v : String) (exts : List (XmlNode ViewProps × Option ModuleKey)) :
    List String :=
  let rendered := renderCapped exts
    (fun ext => ext.1.xmlid ++ "  →  " ++ repoTag (g.repoOf ext.2) ++
      (ext.2.map (·.name)).getD "None") listPreviewMaxItems
    (s!"entity_lookup(kind='view', xmlid='{xmlid}', odoo_version='{v}')" ++
      " to drill into a specific view")
  (rendered.zip ((exts.take listPreviewMaxItems).map some ++ [none])).zipIdx.flatMap fun row =>
    let last := row.2 + 1 = rendered.length
    ("│   " ++ (if last then "└─ " else "├─ ") ++ row.1.1) ::
      match row.1.2.bind (·.1.props) with
      | some props => (props.xpathsExprs.zip props.xpathsPositions).map fun x =>
          "│   " ++ (if last then "    " else "│   ") ++ s!"└─ xpath: {x.1} [{x.2}]"
      | none => []

/-- `_resolve_view(xmlid, odoo_version, profile_name)` -/
def resolveView (xmlid v : String) (profileName : Option String) : String :=
  let views := g.viewNamed xmlid v profileName
  match q.unordered 0 (views.flatMap g.withModules) with
  | [] => s!"View '{xmlid}' not found in Odoo {v}."
  | (view, mod) :: _ =>
      let parent := (q.unordered 1 (views.flatMap g.parentViews)).head?
      let exts := q.unordered 2 ((g.extensionsOf xmlid v profileName).flatMap g.withModules)
      let xpaths := (view.props.map fun p => p.xpathsExprs.zip p.xpathsPositions).getD []
      let model := view.props.map (·.model)
      "\n".intercalate <|
        [s!"{xmlid} (Odoo {v})", "├─ Type:   " ++ (view.props.map (·.viewType)).getD "?",
          "├─ Model:  " ++ model.getD "?",
          "├─ Module: " ++ repoTag (g.repoOf mod) ++ (mod.map (·.name)).getD "None" ++
            if view.props.map (·.mode) = some "extension" then " (extension)" else ""] ++
        (match parent with
          | some p => s!"├─ Inherits from: {p.xmlid}" ::
              if (view.props.map (·.xpathsExprs)).getD [] = [] then []
              else s!"├─ XPath modifications ({xpaths.length}):" ::
                renderListBlock (xpaths.map fun x => s!"{x.1} [{x.2}]")
          | none => []) ++
        (if exts = [] then []
          else s!"├─ Extended by ({exts.length} modules):" :: g.extensionLines xmlid v exts) ++
        [formatNextStep <|
          ((valueOrNone model).toList.map fun m =>
            (PrintedCall.modelInspect m "views" v 0).hint "for sibling views") ++
          [s!"find_examples(query='{xmlid} xpath', odoo_version='{v}') for inheritance patterns"]]

/-- The models of a module, counted, and the first of them. -/
def modelsLine (label v : String) (names : List String) : String :=
  match names with
  | [] => s!"├─ {label} models: 0"
  | first :: _ =>
      let preview := cappedNames names <|
        " (use " ++ (PrintedCall.modelInspect first "fields" v 0).opening ++ "))"
      s!"├─ {label} models: {names.length} ({preview})"

/-- `RETURN view.type AS type, count(view) AS c` -/
def viewBreakdown (views : List (XmlNode ViewProps)) : List (Option String × Nat) :=
  let types := views.map fun n => n.props.map (·.viewType)
  types.dedup.map fun type => (type, types.count type)

/-- `_describe_module(name, odoo_version, profile_name)` -/
def describeModule (name v : String) (profileName : Option String) : String :=
  match g.moduleNamed name v profileName with
  | none => s!"No module named '{name}' indexed for Odoo {v}."
  | some mod =>
      let depends := q.ordered 0 id (g.dependsOf ⟨name, v⟩)
      let defines := q.ordered 1 id ((g.modelsIn name v true profileName).map (·.1.name))
      let extends' := q.ordered 2 id ((g.modelsIn name v false profileName).map (·.1.name))
      let views := q.ordered 3
        (fun b => toLex (OrderDual.toDual b.2, (b.1 : WithTop String)))
        (viewBreakdown (g.viewsIn name v profileName))
      let viewTotal := (views.map (·.2)).sum
      let patches := g.patchesIn name v profileName
      let edition := textOr mod.edition "community" ++
        ((valueOrNone mod.viindooEquivalentQname).map fun qname =>
          s!" (Viindoo equivalent: {qname})").getD ""
      let hints := ((defines ++ extends').head?.map fun model =>
        [(PrintedCall.modelInspect model "fields" v 0).hint "for declared fields",
          (PrintedCall.modelInspect model "views" v 0).hint "for module views"]).getD []
      "\n".intercalate <|
        [s!"{name} (Odoo {v})", "├─ Manifest:"] ++
        renderListBlock
          ["Depends: " ++ (if depends = [] then "—" else cappedNames depends ""),
            "Edition: " ++ edition, "Version: " ++ textOr mod.versionRaw "—"] ++
        [modelsLine "Defines" v defines, modelsLine "Extends" v extends',
          if viewTotal = 0 then "├─ Views: 0"
          else
            let breakdown :=
              ", ".intercalate (views.map fun b => s!"{b.2} " ++ textOr b.1 "unknown")
            s!"├─ Views: {viewTotal} ({breakdown})",
          s!"├─ JS patches: {patches.length}"] ++
        if hints = [] then [] else [formatNextStep hints]

end Graph

end OdooSemantic
