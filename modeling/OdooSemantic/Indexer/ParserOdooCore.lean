import OdooSemantic.Indexer.Models
import OdooSemantic.Indexer.PythonAst

/-!
# The symbol of a function

`src/indexer/parser_odoo_core.py` (`_has_deprecated_decorator`, `_has_body_level_deprecation_warning`,
`_build_function_symbol`).
-/

namespace OdooSemantic

/-- A name, or the last part of a dotted one. -/
def PyNode.spellsName (word : String) : PyNode → Bool
  | .attr _ last => last = word
  | .name id => id = word
  | _ => false

/-- `_has_deprecated_decorator(fn_node)` -/
def FunctionDef.hasDeprecatedDecorator (f : FunctionDef) : Bool :=
  f.decoratorList.any fun dec =>
    match dec with
    | .call func _ _ => func.spellsName "deprecated"
    | dec => dec.spellsName "deprecated"

/-- `kw.value`, where `kw.arg == "category"` -/
def PyNode.category : PyNode → Option PyNode
  | .keyword (some "category") value => some value
  | _ => none

/-- `warnings.warn(…)` with a `DeprecationWarning` among its arguments. -/
def PyNode.warnsOfDeprecation : PyNode → Bool
  | .call (.attr (.name "warnings") "warn") args keywords =>
      (args ++ keywords.filterMap PyNode.category).any (PyNode.spellsName "DeprecationWarning")
  | _ => false

/-- `_has_body_level_deprecation_warning(fn_node)` -/
def FunctionDef.hasBodyLevelDeprecationWarning (f : FunctionDef) : Bool :=
  f.node.walk.any PyNode.warnsOfDeprecation

/-- The parameters that a signature has. -/
def FunctionDef.shownArgs (f : FunctionDef) : List String :=
  f.args.args.map (fun a => a.arg.text) ++
    (f.args.vararg.map fun a => "*" ++ a.arg.text).toList ++
    (f.args.kwarg.map fun a => "**" ++ a.arg.text).toList

/-- `f"{fn_node.name}({', '.join(args)})"` -/
def FunctionDef.signature (f : FunctionDef) : String :=
  f.name.text ++ "(" ++ String.intercalate ", " f.shownArgs ++ ")"

/-- `_build_function_symbol(fn_node, qualified_name, odoo_version, kind, file_path)` -/
def buildFunctionSymbol (f : FunctionDef) (qualifiedName odooVersion kind : String)
    (filePath : Option String) : CoreSymbolInfo where
  qualifiedName := qualifiedName
  kind := kind
  odooVersion := odooVersion
  signature := some f.signature
  filePath := filePath
  line := some f.lineno
  status :=
    if f.hasDeprecatedDecorator || f.hasBodyLevelDeprecationWarning then "deprecated" else "stable"

end OdooSemantic
