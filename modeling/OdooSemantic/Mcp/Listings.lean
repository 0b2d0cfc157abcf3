import Mathlib.Order.WithBot
import OdooSemantic.Graph.Graph
import OdooSemantic.Lib.Paging
import OdooSemantic.Lib.PyText
import OdooSemantic.Mcp.Refs

/-!
# The listings of `src/mcp/server.py`

What `model_inspect` and `module_inspect` list, they list page by page. The six listings differ in
what they match, in how they show a row and in their hints; how a page is cut, what it is told to
say of the rows behind it, and how the rows are named and grouped, is the same in all of them
(`Listing.page`).

The rows are those of one query and the total is that of another one; both look at the same nodes.
The order of the rows is the order of the query, which says nothing of ties.
-/

namespace OdooSemantic

open KeyedStore Paging

/-! ## Texts -/

/-- `value or default` -/
def textOr (value : Option String) (default : String) : String :=
  (value.filter (· ≠ "")).getD default

/-- `format_next_step(hints)` -/
def formatNextStep (hints : List String) : String :=
  if hints = [] then "" else "└─ Next: " ++ " | ".intercalate (hints.take 2)

/-- `render_list_block(rows)` -/
def renderListBlock (rows : List String) : List String :=
  rows.mapIdx fun i row => (if i + 1 = rows.length then "│   └─ " else "│   ├─ ") ++ row

/-- `_render_capped(items, formatter, cap=cap, more_hint=more_hint)` -/
def renderCapped {A : Type} (items : List A) (formatter : A → String) (cap : Nat)
    (moreHint : String) : List String :=
  (items.take cap).map formatter ++
    if cap < items.length then [s!"... and {items.length - cap} more (use {moreHint})"] else []

/-- Each row behind its ref, but for what only says how many there are more. -/
def tagRefs : List String → List String → List String
  | [], _ => []
  | row :: rows, refs =>
      if PyText.startswith row "... and " then row :: tagRefs rows refs
      else match refs with
        | ref :: refs => ((if ref = "" then "" else s!"[ref={ref}] ") ++ row) :: tagRefs rows refs
        | [] => row :: tagRefs rows []

/-! ## Calls -/

/-- The arguments of `model_inspect`. -/
structure ModelInspect where
  model : String
  method : String
  odooVersion : String := "auto"
  profileName : Option String := none
  field : Option String := none
  methodName : Option String := none
  startIndex : Int := 0
  limit : Int := 200
  fromModule : Option String := none
  kind : Option String := none
  viewType : Option String := none
deriving DecidableEq

/-- The arguments of `module_inspect`. -/
structure ModuleInspect where
  name : String
  method : String
  odooVersion : String := "auto"
  profileName : Option String := none
  startIndex : Int := 0
  limit : Int := 200
  viewType : Option String := none
  boundModel : Option String := none
  era : Option String := none
  target : Option String := none
deriving DecidableEq

inductive InspectCall where
  | model (args : ModelInspect)
  | module (args : ModuleInspect)
deriving DecidableEq

/-- A call as the texts print it: what is not printed has its default. -/
inductive PrintedCall where
  | modelInspect (model method odooVersion : String) (startIndex : Nat)
  | moduleInspect (name method odooVersion : String) (startIndex : Nat)
deriving DecidableEq

namespace PrintedCall

def call : PrintedCall → InspectCall
  | modelInspect model method odooVersion startIndex =>
      .model { model, method, odooVersion, startIndex }
  | moduleInspect name method odooVersion startIndex =>
      .module { name, method, odooVersion, startIndex }

/-- The call without its cursor. -/
def opening : PrintedCall → String
  | modelInspect model method odooVersion _ =>
      s!"model_inspect(model='{model}', method='{method}', odoo_version='{odooVersion}'"
  | moduleInspect name method odooVersion _ =>
      s!"module_inspect(name='{name}', method='{method}', odoo_version='{odooVersion}'"

def text (printed : PrintedCall) : String :=
  match printed with
  | modelInspect _ _ _ startIndex => s!"{printed.opening}, start_index={startIndex})"
  | moduleInspect _ _ _ startIndex => s!"{printed.opening}, start_index={startIndex})"

/-- The call, for a hint. -/
def hint (printed : PrintedCall) (purpose : String) : String := s!"{printed.opening}) {purpose}"

end PrintedCall

/-! ## Rows -/

/-- A row of a listing. What the query does not return is left out. -/
structure ListedRow where
  /-- The name of a field, a method or a component, the xmlid of a view or a template, the target
      of a patch. -/
  name : String
  patchName : String := ""
  /-- `ttype`, `convention_kind`, `type`, `bound_model`, `parent_xmlid`, `era`. -/
  kind : Option String
  module : String
  repo : Option String := none
  editionRank : Nat := 0
  modName : Option String := none
deriving DecidableEq

/-- `ORDER BY edition_rank ASC, mod_name ASC, name ASC, patch_name ASC`; `null` comes last. -/
def ListedRow.key (row : ListedRow) : ℕ ×ₗ WithTop String ×ₗ String ×ₗ String :=
  toLex (row.editionRank, toLex (row.modName, toLex (row.name, row.patchName)))

/-- `_edition_rank_cypher(…)` -/
def editionRank (edition : Option String) : Nat :=
  match edition with
  | some "community" => 0
  | some "enterprise" => 1
  | some "viindoo" => 2
  | some "oca" => 3
  | _ => 4

/-- `$profile_name IS NULL OR $profile_name IN n.profile` -/
def inProfile (profileName : Option String) (profile : Option (List String)) : Bool :=
  profileName.all fun p => p ∈ profile.getD []

/-- `$param IS NULL OR n.property = $param` -/
def matchesParam (param property : Option String) : Bool := param.all fun p => property = some p

namespace Graph

variable (g : Graph)

/-- `OPTIONAL MATCH (mod:Module {name: …, odoo_version: $v})`, and what is returned of it. -/
def withModule (v : String) (row : ListedRow) : ListedRow :=
  let mod := g.modules.lookup ⟨row.module, v⟩
  { row with
    repo := mod.bind (·.repo)
    editionRank := editionRank (mod.bind (·.edition))
    modName := mod.map fun _ => row.module }

def fieldsOf (model v : String) (module kind profileName : Option String) :
    List (MemberKey × FieldProps) :=
  (g.fields.entries.map fun e => (e.1, e.2)).filter fun f =>
    f.1.model = model && f.1.odooVersion = v && inProfile profileName f.2.profile &&
      matchesParam module f.1.module && matchesParam kind f.2.ttype && f.1.module ≠ unresolvedModule

def methodsOf (model v : String) (module profileName : Option String) :
    List (MemberKey × MethodProps) :=
  (g.methods.entries.map fun e => (e.1, e.2)).filter fun m =>
    m.1.model = model && m.1.odooVersion = v && inProfile profileName m.2.profile &&
      matchesParam module m.1.module && m.1.module ≠ unresolvedModule

/-- The views of a model, or of a module. -/
def viewsOf (model module : Option String) (v : String) (viewType profileName : Option String) :
    List (XmlNode ViewProps) :=
  g.views.nodes.filter fun n =>
    matchesParam model (n.props.map (·.model)) && matchesParam module n.module &&
      n.odooVersion = v && inProfile profileName n.profile &&
      matchesParam viewType (n.props.map (·.viewType)) && n.module ≠ unresolvedModule

def owlCompsOf (module v : String) (boundModel profileName : Option String) :
    List (OWLCompKey × OWLCompProps) :=
  (g.owlComps.entries.map fun e => (e.1, e.2)).filter fun c =>
    c.1.module = module && c.1.odooVersion = v && inProfile profileName c.2.profile &&
      matchesParam boundModel c.2.boundModel && c.1.module ≠ unresolvedModule

def qwebsOf (module v : String) (profileName : Option String) : List (XmlNode Unit) :=
  g.qwebs.nodes.filter fun t =>
    t.module = module && t.odooVersion = v && inProfile profileName t.profile &&
      t.module ≠ unresolvedModule

/-- `OPTIONAL MATCH (t)-[:EXTENDS_TMPL]->(parent) WHERE NOT coalesce(parent.unresolved, false)` -/
def parentsOf (t : XmlNode Unit) : List (XmlNode Unit) :=
  g.qwebs.nodes.flatMap fun parent =>
    if parent.unresolved then []
    else ([true, false].filter fun flag => (t.id, parent.id, flag) ∈ g.qwebs.links).map fun _ => parent

def jsPatchesOf (v : String) (target module era profileName : Option String) :
    List (JSPatchKey × JSPatchProps) :=
  (g.jsPatches.entries.map fun e => (e.1, e.2)).filter fun j =>
    j.1.odooVersion = v && inProfile profileName j.2.profile && matchesParam target j.1.target &&
      matchesParam module j.1.module && matchesParam era j.2.era && j.1.module ≠ unresolvedModule

end Graph

/-! ## A page -/

/-- `LIST_PREVIEW_MAX_ITEMS` -/
def listPreviewMaxItems : Nat := 20

/-- `LIST_PREVIEW_FIELDS_MAX` -/
def listPreviewFieldsMax : Nat := 50

/-- `LIST_PREVIEW_PATCHES_MAX` -/
def listPreviewPatchesMax : Nat := 10

/-- The database refuses a negative `SKIP` or `LIMIT`; a row cannot be named. -/
inductive ListingError where
  | cypher
  | ref (e : RefValueError)
deriving DecidableEq

/-- What one call meets: how the database sorts, the interpreter, the clock, and the refs. -/
structure ListingExec where
  order : RowOrder ListedRow.key
  py : PyRuntime String
  /-- `id` of the dict for the row with this number. -/
  oid : Nat → Int
  ttl : ℚ
  now : ℚ
  minter : RefMinter String
  apiKeyId : String

/-- The text of an answer, the rows that are in it, and the call that it prints for the next ones. -/
structure ListingPage where
  text : String
  rows : List ListedRow := []
  next : Option PrintedCall := none

/-- What one of the listings makes of its arguments. -/
structure Listing where
  cap : Nat
  header : String
  /-- What the call answers where it does not even ask the database. -/
  refusal : Option String := none
  rows : List ListedRow
  /-- What the counting query finds. -/
  total : Nat := rows.length
  format : ListedRow → String
  refKind : String
  refItem : ListedRow → Dict String String
  /-- Under a line for each repo and module. -/
  grouped : Bool
  /-- `<builtin>` -/
  builtin : List String := []
  notices : List String := []
  /-- For a module, and a limit that is high enough. -/
  moreHint : String → Int → String
  printed : Nat → PrintedCall
  emptyHints : List String
  /-- For the first row. -/
  hints : Option ListedRow → List String

abbrev RowGroups := List ((String × String) × List (ListedRow × String))

/-- `groups[key].append(…)`, in the order in which the keys come up. -/
def addToGroup (key : String × String) (r : ListedRow × String) : RowGroups → RowGroups
  | [] => [(key, [r])]
  | g :: gs => if g.1 = key then (key, g.2 ++ [r]) :: gs else g :: addToGroup key r gs

/-- `(r.get("repo") or "?", r.get("module") or "?")` -/
def ListedRow.groupKey (row : ListedRow) : String × String :=
  (textOr row.repo "?", textOr row.module "?")

def groupRows (rows : List (ListedRow × String)) : RowGroups :=
  rows.foldl (fun gs r => addToGroup r.1.groupKey r gs) []

namespace Listing

variable (l : Listing)

/-- `min(limit, cap)` -/
def effectiveLimit (limit : Int) : Int := min limit l.cap

/-- The lines of a group of rows. -/
def groupLines (limit : Int) (repo mod : String) (rows : List (ListedRow × String)) :
    List String :=
  let rendered := renderCapped (rows.map (·.1)) l.format l.cap
    (l.moreHint mod (max (limit * 2) l.total))
  let tagged := tagRefs rendered (rows.map (·.2))
  if l.grouped then s!"├─ [{repo}] {mod}" :: renderListBlock tagged
  else tagged.map fun row => s!"├─ {row}"

/-- The lines for the rows. -/
def rowLines (limit : Int) (rows : List (ListedRow × String)) : List String :=
  if l.grouped then
    (groupRows rows).flatMap fun g => l.groupLines limit g.1.1 g.1.2 g.2
  else l.groupLines limit "" "" rows

/-- The rows that those lines are about. -/
def rowsShown (rows : List (ListedRow × String)) : List ListedRow :=
  if l.grouped then (groupRows rows).flatMap fun g => (g.2.map (·.1)).take l.cap
  else (rows.map (·.1)).take l.cap

def builtinLines : List String :=
  if l.builtin = [] then [] else "├─ [?] <builtin>" :: renderListBlock l.builtin

def noticeLines : List String := l.notices.map fun notice => s!"├─ {notice}"

/-- The answer where the counting query finds nothing. -/
def emptyText : String :=
  "\n".intercalate (l.header :: l.builtinLines ++ l.noticeLines ++
    (if l.builtin = [] then ["├─ (none)"] else []) ++ [formatNextStep l.emptyHints])

/-- The line that says where the page stands. -/
def positionLines (startIndex endIndex : Nat) : List String :=
  if endIndex < l.total then
    let printed := (l.printed endIndex).text
    let behind := min l.cap (l.total - endIndex)
    [s!"├─ Showing rows {startIndex + 1}–{endIndex} of {l.total}. Call {printed} for next {behind}."]
  else if 0 < startIndex then
    [s!"├─ Showing rows {startIndex + 1}–{endIndex} of {l.total} (last page)."]
  else []

def pageText (limit : Int) (startIndex : Nat) (rows : List (ListedRow × String)) : String :=
  let first := (rows.head?.map (·.1)).filter (·.name ≠ "")
  let footer := formatNextStep (l.hints first)
  "\n".intercalate (l.header :: l.builtinLines ++ l.noticeLines ++ l.rowLines limit rows ++
    l.positionLines startIndex (startIndex + rows.length) ++ if footer = "" then [] else [footer])

/-- The items for `mint_refs`. -/
def refItems (e : ListingExec) (rows : List ListedRow) : List (RefItem String) :=
  rows.mapIdx fun i row => { oid := e.oid i, data := l.refItem row }

/-- A page of the listing, and what the names of its rows leave in the minter. -/
def page (e : ListingExec) (limit startIndex : Int) :
    Except ListingError (ListingPage × RefMinter String) :=
  match l.refusal with
  | some text => .ok ({ text }, e.minter)
  | none =>
      if l.effectiveLimit limit < 0 ∨ startIndex < 0 then .error .cypher
      else
        let start := startIndex.toNat
        let rows := e.order.page l.rows (l.effectiveLimit limit).toNat start
        if l.total = 0 then .ok ({ text := l.emptyText }, e.minter)
        else
          match e.minter.mint e.py e.ttl e.now (l.refItems e rows) e.apiKeyId l.refKind with
          | (.error err, _) => .error (.ref err)
          | (.ok refs, minter) =>
              let tagged := rows.zip refs
              let endIndex := start + rows.length
              .ok ({ text := l.pageText limit start tagged
                     rows := l.rowsShown tagged
                     next := if endIndex < l.total then some (l.printed endIndex) else none },
                minter)

end Listing

/-! ## The six listings -/

/-- `MAGIC_FIELDS`, with their types. -/
def magicFields : List (String × String) :=
  [("id", "integer"), ("display_name", "char"), ("create_uid", "many2one"),
    ("create_date", "datetime"), ("write_uid", "many2one"), ("write_date", "datetime")]

namespace Graph

variable (g : Graph)

/-- The magic fields that the model does not declare; on the first page, where all modules are
    listed. -/
def magicPrelude (model v : String) (module kind profileName : Option String) (startIndex : Int) :
    List (String × String) :=
  if startIndex = 0 ∧ module = none then
    let existing := (g.fieldsOf model v none none profileName).map (·.1.name)
    magicFields.filter fun f => f.1 ∉ existing && matchesParam kind f.2
  else []

/-- `_list_fields(model, odoo_version, module, kind, profile_name, …)` -/
def listFields (model v : String) (module kind profileName : Option String) (startIndex : Int) :
    Listing :=
  let magic := g.magicPrelude model v module kind profileName startIndex
  let methods := PrintedCall.modelInspect model "methods" v 0
  { cap := listPreviewFieldsMax
    header := s!"Fields of {model} (Odoo {v})"
    rows := (g.fieldsOf model v module kind profileName).map fun f =>
      g.withModule v { name := f.1.name, kind := f.2.ttype, module := f.1.module }
    format := fun r => r.name ++ " : " ++ r.kind.getD "None"
    refKind := "field"
    refItem := fun r => (Dict.empty.set "field_name" r.name).set "model" model
    grouped := true
    builtin := magic.map fun f => s!"{f.1} : {f.2}"
    moreHint := fun _ n => (PrintedCall.modelInspect model "fields" v 0).hint
      s!"with limit={n} for full list"
    printed := .modelInspect model "fields" v
    emptyHints := [methods.hint "for behavior"]
    hints := fun first =>
      let named := (first.map (·.name)).or (magic.head?.map (·.1))
      (named.toList.map fun f => s!"model_inspect(model='{model}', method='field', field='{f}'" ++
        s!", odoo_version='{v}') for full chain") ++ [methods.hint "for behavior"] }

/-- The names that two modules at least have a method of. -/
def overrideNames (model v : String) (profileName : Option String) : List String :=
  let methods := g.methodsOf model v none profileName
  (methods.map (·.1.name)).filter fun name =>
    ∃ m ∈ methods, ∃ m' ∈ methods, m.1.name = name ∧ m'.1.name = name ∧ m.1.module ≠ m'.1.module

/-- `_list_methods(model, odoo_version, module, profile_name, …)` -/
def listMethods (model v : String) (module profileName : Option String) : Listing :=
  let overrides := g.overrideNames model v profileName
  { cap := listPreviewMaxItems
    header := s!"Methods of {model} (Odoo {v})"
    rows := (g.methodsOf model v module profileName).map fun m =>
      g.withModule v { name := m.1.name, kind := m.2.conventionKind, module := m.1.module }
    format := fun r =>
      r.name ++ (if r.name ∈ overrides then "(*)" else "") ++ " : " ++ textOr r.kind "private"
    refKind := "method"
    refItem := fun r => (Dict.empty.set "method_name" r.name).set "model" model
    grouped := true
    moreHint := fun _ n => (PrintedCall.modelInspect model "methods" v 0).hint
      s!"with limit={n} for full list"
    printed := .modelInspect model "methods" v
    emptyHints := [(PrintedCall.modelInspect model "fields" v 0).hint "for shape"]
    hints := fun first =>
      match first with
      | some r =>
          [s!"model_inspect(model='{model}', method='method', method_name='{r.name}'" ++
              s!", odoo_version='{v}') for override chain",
            s!"find_override_point(model='{model}', method='{r.name}'" ++
              s!", odoo_version='{v}') for hook spot"]
      | none => [] }

/-- `_list_views_core(…)`, but for the header, the calls and the hint for an empty answer. -/
def listViewsCore (model module : Option String) (scope v : String)
    (viewType profileName : Option String) (header : String) (printed : Nat → PrintedCall)
    (emptyHint : String) : Listing where
  cap := listPreviewMaxItems
  header := header
  rows := (g.viewsOf model module v viewType profileName).map fun n =>
    g.withModule v { name := n.xmlid, kind := n.props.map (·.viewType), module := n.module }
  format := fun r => r.name ++ " : " ++ textOr r.kind "unknown"
  refKind := "view"
  refItem := fun r => Dict.empty.set "xmlid" r.name
  grouped := true
  moreHint := fun _ n => s!"{(printed 0).opening}, limit={n}) for full list"
  printed := printed
  emptyHints := [emptyHint]
  hints := fun first =>
    (first.toList.map fun r =>
      s!"entity_lookup(kind='view', xmlid='{r.name}', odoo_version='{v}') for full xpath chain") ++
      [s!"find_examples(query='{scope} view', odoo_version='{v}') for inheritance patterns"]

/-- `_list_views(model, odoo_version, view_type, profile_name, …)` -/
def listViews (model v : String) (viewType profileName : Option String) : Listing :=
  g.listViewsCore (some model) none model v viewType profileName
    s!"Views of {model} (Odoo {v})" (.modelInspect model "views" v)
    ((PrintedCall.modelInspect model "methods" v 0).hint "for behavior")

/-- `_list_views_by_module(module, odoo_version, view_type, profile_name, …)` -/
def listViewsByModule (module v : String) (viewType profileName : Option String) : Listing :=
  g.listViewsCore none (some module) module v viewType profileName
    s!"Views in module '{module}' (Odoo {v})" (.moduleInspect module "views" v)
    s!"describe_module(name='{module}', odoo_version='{v}') for model fields"

/-- `int(odoo_version.split(".")[0])`, 0 where it raises. -/
def majorOf (v : String) : Int :=
  (PyText.int (String.ofList (v.toList.takeWhile (· ≠ '.')))).getD 0

/-- Versions before there were components. -/
def isWidgetEra (v : String) : Bool := majorOf v ≠ 0 && majorOf v ≤ 13

/-- `_list_owl_components(module, odoo_version, bound_model, profile_name, …)`; the components are
    sorted by their names alone. -/
def listOwlComponents (module v : String) (boundModel profileName : Option String) : Listing :=
  let header := s!"OWL components of {module} (Odoo {v})"
  let qweb := (PrintedCall.moduleInspect module "qweb" v 0).hint "for QWeb templates"
  let js := (PrintedCall.moduleInspect module "js" v 0).hint
  { cap := listPreviewMaxItems
    header
    refusal := if isWidgetEra v then
        some ("\n".intercalate [header, "├─ (none) — Warning: No OWL components in v8-v13" ++
          " (Widget era). Use module_inspect(method='js') for legacy widget extensions.",
          formatNextStep [js "for legacy widget extends"]])
      else none
    rows := (g.owlCompsOf module v boundModel profileName).map fun c =>
      { name := c.1.name, kind := c.2.boundModel, module := c.1.module }
    format := fun r => r.name ++ " : " ++ textOr r.kind "(unbound)"
    refKind := "field"
    refItem := fun r => (Dict.empty.set "field_name" r.name).set "module" module
    grouped := false
    notices := if boundModel = none then [] else
      ["Warning: bound_model resolution is heuristic" ++
        " — may miss components using dynamic this.props.resModel"]
    moreHint := fun _ n => (PrintedCall.moduleInspect module "owl" v 0).hint
      s!"with limit={n} for full list"
    printed := .moduleInspect module "owl" v
    emptyHints := [qweb, js "for related patches"]
    hints := fun _ => [qweb, js "for related patches"] }

/-- `_list_qweb_templates(module, odoo_version, profile_name, …)`: a template has a row for each
    of its parents. -/
def listQwebTemplates (module v : String) (profileName : Option String) : Listing :=
  let templates := g.qwebsOf module v profileName
  let owl := (PrintedCall.moduleInspect module "owl" v 0).hint "for OWL components"
  { cap := listPreviewMaxItems
    header := s!"QWeb templates of {module} (Odoo {v})"
    rows := templates.flatMap fun t =>
      let parents := (g.parentsOf t).map fun parent => some parent.xmlid
      (if parents = [] then [none] else parents).map fun parent =>
        { name := t.xmlid, kind := parent, module := t.module }
    total := templates.length
    format := fun r => r.name ++ " : t-inherit=" ++ textOr r.kind "(root)"
    refKind := "view"
    refItem := fun r => Dict.empty.set "xmlid" r.name
    grouped := false
    moreHint := fun _ n => (PrintedCall.moduleInspect module "qweb" v 0).hint
      s!"with limit={n} for full list"
    printed := .moduleInspect module "qweb" v
    emptyHints := [owl, s!"describe_module(name='{module}', odoo_version='{v}') for module overview"]
    hints := fun _ =>
      [owl, s!"find_examples(query='QWeb {module}', odoo_version='{v}') for inheritance patterns"] }

/-- `_JS_ERA_MAP` -/
def jsEraMap : List (String × String) :=
  [("era1", "extend"), ("era2", "include"), ("era3", "patch"), ("extend", "extend"),
    ("include", "include"), ("patch", "patch")]

/-- `_JS_ERA_MAP.get(era.lower())` -/
def eraFilter (era : String) : Option String := jsEraMap.lookup (era.map Char.toLower)

/-- `_list_js_patches(odoo_version, target, module, era, profile_name, …)`, for a module. -/
def listJsPatches (v module : String) (target era profileName : Option String) : Listing :=
  let parent := textOr target (textOr module "all targets")
  let patterns := s!"find_examples(query='JS patch', odoo_version='{v}') for patch patterns"
  let owl := (PrintedCall.moduleInspect module "owl" v 0).hint "for v15+ components"
  { cap := listPreviewPatchesMax
    header := s!"JS patches on {parent} (Odoo {v})"
    refusal := match era with
      | some e =>
          if eraFilter e = none then
            some (s!"Invalid era '{e}'. Use era1, era2, or era3" ++ " (or extend/include/patch).")
          else none
      | none => none
    rows := (g.jsPatchesOf v target module (era.bind eraFilter) profileName).map fun j =>
      g.withModule v
        { name := j.1.target, patchName := j.1.patchName, kind := j.2.era, module := j.1.module }
    format := fun r => r.name ++ "." ++ r.patchName ++ " : era=" ++ textOr r.kind "?"
    refKind := "module"
    refItem := fun r =>
      (Dict.empty.set "module_name" (textOr r.module "?")).set "target" (textOr r.name "?")
    grouped := true
    moreHint := fun mod n => (PrintedCall.moduleInspect mod "js" v 0).hint
      s!"with limit={n} for full list"
    printed := .moduleInspect (textOr module "...") "js" v
    emptyHints := if module = "" then [patterns] else [owl]
    hints := fun _ => if module = "" then [patterns] else [owl, patterns] }

end Graph

/-! ## Which listing a call asks for -/

/-- `_model_inspect(…)`, as far as it lists. -/
def ModelInspect.listing (g : Graph) (v : String) (args : ModelInspect) : Option Listing :=
  if args.method = "fields" then
    some (g.listFields args.model v args.fromModule args.kind args.profileName args.startIndex)
  else if args.method = "methods" then some (g.listMethods args.model v none args.profileName)
  else if args.method = "views" then
    some (g.listViews args.model v args.viewType args.profileName)
  else none

/-- `_module_inspect(…)`, as far as it lists. -/
def ModuleInspect.listing (g : Graph) (v : String) (args : ModuleInspect) : Option Listing :=
  if args.method = "views" then
    some (g.listViewsByModule args.name v args.viewType args.profileName)
  else if args.method = "owl" then
    some (g.listOwlComponents args.name v args.boundModel args.profileName)
  else if args.method = "qweb" then some (g.listQwebTemplates args.name v args.profileName)
  else if args.method = "js" then
    some (g.listJsPatches v args.name args.target args.era args.profileName)
  else none

namespace InspectCall

def method : InspectCall → String
  | model args => args.method
  | module args => args.method

def odooVersion : InspectCall → String
  | model args => args.odooVersion
  | module args => args.odooVersion

def profileName : InspectCall → Option String
  | model args => args.profileName
  | module args => args.profileName

def limit : InspectCall → Int
  | model args => args.limit
  | module args => args.limit

def startIndex : InspectCall → Int
  | model args => args.startIndex
  | module args => args.startIndex

/-- The listing, for the version that the call comes down to. -/
def listing (g : Graph) (v : String) : InspectCall → Option Listing
  | model args => args.listing g v
  | module args => args.listing g v

end InspectCall

end OdooSemantic
