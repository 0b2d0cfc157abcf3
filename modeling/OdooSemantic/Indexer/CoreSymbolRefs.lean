import OdooSemantic.Indexer.Models
import OdooSemantic.Indexer.PythonAst
import OdooSemantic.Lib.Dict
import OdooSemantic.Lib.FirstNames
import OdooSemantic.Lib.PyText

/-!
# Which core symbols a function refers to

`src/indexer/parser_python.py` (`_build_import_scope_map`, `_collect_module_local_defs`,
`_should_keep_ref`, `_extract_core_symbol_refs`). A file is its statements, and the imports and
definitions among them are those outside of any other statement.

`class_is_model` is handed on to `_should_keep_ref` and not read there.
-/

namespace OdooSemantic

/-- `_DEPRECATED_API_SYMBOLS` -/
def deprecatedApiSymbols : List String :=
  ["name_get", "oldname", "name_search", "safe_eval", "fields_get", "_search", "read_group",
    "default_get", "group_operator", "track_visibility", "float_compare", "float_round",
    "get_modules", "html_escape", "image_resize_image", "image_resize_image_big",
    "image_resize_image_medium", "image_resize_image_small", "pycompat"]

/-! ## What the file says -/

/-- `alias.asname if alias.asname else alias.name` -/
def PyAlias.localName (a : PyAlias) : String := (truthy a.asname).getD a.name

/-- `f"{module}.{alias.name}" if module else alias.name` -/
def qualifiedImport (module : Option String) (a : PyAlias) : String :=
  match truthy module with
  | some module => module ++ "." ++ a.name
  | none => a.name

/-- What a statement adds to the map, in order. -/
def TopLevel.scopeEntries : TopLevel → List (String × String)
  | .importNames names => names.map fun a => (a.localName, a.name)
  | .importFrom module names _ => names.map fun a => (a.localName, qualifiedImport module a)
  | _ => []

/-- `_build_import_scope_map(tree)` -/
def buildImportScopeMap (tree : List TopLevel) : Dict String String :=
  (tree.flatMap TopLevel.scopeEntries).foldl (fun scope e => scope.set e.1 e.2) Dict.empty

/-- `_collect_module_local_defs(tree)` -/
def collectModuleLocalDefs (tree : List TopLevel) : List String :=
  tree.filterMap fun stmt =>
    match stmt with
    | .function f => some f.name.text
    | .classDef c => some c.name
    | _ => none

/-- `name == "odoo" or name.startswith("odoo.")` -/
def inOdooNamespace (qualified : String) : Bool :=
  qualified = "odoo" || PyText.startswith qualified "odoo."

/-- `_is_odoo_qualified(name, scope_map)` -/
def isOdooQualified (name : String) (scope : Dict String String) : Bool :=
  ((scope.get? name).map inOdooNamespace).getD false

/-- `_obj_is_odoo_alias(obj_node, scope_map)` -/
def objIsOdooAlias (scope : Dict String String) : PyNode → Bool
  | .name id => isOdooQualified id scope
  | .attr value _ => objIsOdooAlias scope value
  | _ => false

/-! ## The calls -/

/-- What a call looks like, by its `func`. -/
inductive CoreCall where
  | superAttr (target : String)
  | attr (obj : PyNode) (target : String)
  | bare (target : String)

def CoreCall.target : CoreCall → String
  | superAttr target => target
  | attr _ target => target
  | bare target => target

/-- `super(…)` -/
def PyNode.isSuperCall : PyNode → Bool
  | .call (.name id) _ _ => id = "super"
  | _ => false

/-- The call that a node is, where it has a target. -/
def PyNode.coreCall : PyNode → Option CoreCall
  | .call (.attr obj target) _ _ =>
      some (if obj.isSuperCall then .superAttr target else .attr obj target)
  | .call (.name id) _ _ => some (.bare id)
  | _ => none

/-- `_should_keep_ref(target, call_kind, node, scope_map, local_defs, class_is_model)` -/
def shouldKeepRef (scope : Dict String String) (localDefs : List String) : CoreCall → Bool
  | .superAttr _ => true
  | .attr obj _ =>
      if objIsOdooAlias scope obj then true
      else
        match obj with
        | .name objName =>
            if objName = "self" then true
            else if (scope.get? objName).isSome then isOdooQualified objName scope
            else true
        | .attr _ _ => objIsOdooAlias scope obj || true
        | _ => true
  | .bare target =>
      if isOdooQualified target scope then true
      else if target ∈ localDefs then false
      else true

section ShouldKeepRef

variable (scope : Dict String String) (localDefs : List String)

theorem shouldKeepRef_name (objName target : String) :
    shouldKeepRef scope localDefs (.attr (.name objName) target) =
      if objIsOdooAlias scope (.name objName) then true
      else if objName = "self" then true
      else if (scope.get? objName).isSome then isOdooQualified objName scope
      else true := rfl

theorem shouldKeepRef_attr (value : PyNode) (last target : String) :
    shouldKeepRef scope localDefs (.attr (.attr value last) target) = true := by
  change (if objIsOdooAlias scope (.attr value last) then true
    else objIsOdooAlias scope (.attr value last) || true) = true
  rw [Bool.or_true, ite_self]

theorem shouldKeepRef_bare (target : String) : shouldKeepRef scope localDefs (.bare target) =
    if isOdooQualified target scope then true
    else if target ∈ localDefs then false
    else true := rfl

end ShouldKeepRef

/-- The calls of tracked names, in the order of the walk. -/
def FunctionDef.trackedCalls (f : FunctionDef) : List CoreCall :=
  (f.node.walk.filterMap PyNode.coreCall).filter fun c => c.target ∈ deprecatedApiSymbols

/-- No call in the function is left out. -/
theorem FunctionDef.mem_trackedCalls {f : FunctionDef} {c : CoreCall} : c ∈ f.trackedCalls ↔
    c.target ∈ deprecatedApiSymbols ∧
      ∃ node, LevelOrder.Below PyNode.children f.node node ∧ node.coreCall = some c := by
  rw [trackedCalls, List.mem_filter, List.mem_filterMap, decide_eq_true_iff, and_comm]
  simp only [PyNode.mem_walk]

/-- `_extract_core_symbol_refs(fn_node, scope_map, local_defs, class_is_model)` -/
def extractCoreSymbolRefs (f : FunctionDef) (scope : Dict String String) (localDefs : List String) :
    List String :=
  firstNames CoreCall.target (shouldKeepRef scope localDefs) f.trackedCalls

end OdooSemantic
