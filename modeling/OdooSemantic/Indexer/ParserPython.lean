import OdooSemantic.Indexer.CoreSymbolRefs

/-!
# What a class declares

`src/indexer/parser_python.py` (`_parse_class` and its helpers). The body is gone through once; every
assignment sets what its name stands for, so that the last one counts.

`ast.unparse` is a parameter. The source text of fields and methods is left out.
-/

namespace OdooSemantic

/-- `FIELD_TYPES` -/
def fieldTypes : List String :=
  ["Char", "Text", "Html", "Integer", "Float", "Monetary", "Boolean", "Date", "Datetime", "Binary",
    "Selection", "Many2one", "One2many", "Many2many", "Reference", "Json", "Properties", "Image"]

/-- `RELATIONAL_FIELD_TYPES` -/
def relationalFieldTypes : List String := ["many2one", "one2many", "many2many"]

/-- `FIELD_TYPES_LEGACY` -/
def fieldTypesLegacy : List String :=
  ["function", "related", "dummy", "sparse", "float", "integer", "char", "text", "html", "boolean",
    "monetary", "date", "datetime", "binary", "selection", "many2one", "one2many", "many2many",
    "reference", "image"]

/-- `MODEL_BASE_CLASSES` -/
def modelBaseClasses : List String :=
  ["Model", "TransientModel", "AbstractModel", "BaseModel", "osv", "osv_memory", "Model_memory",
    "AbstractModel_memory"]

/-- `_classify_method_convention(method_name)` -/
def classifyMethodConvention (name : String) : String × String × Bool :=
  let starts := PyText.startswith name
  if starts "_compute_" then ("compute", "never", false)
  else if starts "_inverse_" then ("inverse", "never", false)
  else if starts "_search_" then ("search", "never", false)
  else if starts "_get_default_" || starts "_default_" then ("default", "never", false)
  else if starts "_get_" then ("builder", "usually", false)
  else if starts "_prepare_" then ("prepare", "usually", false)
  else if starts "_check_" then ("check", "usually", false)
  else if starts "action_" then ("action", "always", true)
  else if name ∈ ["create", "write", "unlink", "copy", "read"] then ("crud", "always", true)
  else if starts "_" then ("private", "usually", false)
  else ("public", "usually", false)

/-! ## Values -/

namespace PyNode

/-- `_extract_string(node)` -/
def extractString : PyNode → Option String
  | constant (.str s) => some s
  | _ => none

/-- `_extract_inherit(node)` -/
def extractInherit : PyNode → List String
  | constant (.str s) => [s]
  | list elts => elts.filterMap fun elt => truthy elt.extractString
  | _ => []

/-- `_extract_inherits(node)` -/
def extractInherits : PyNode → Dict String String
  | dict keys values =>
      (keys.zip values).foldl (fun result kv =>
        match truthy (kv.1.bind extractString), truthy kv.2.extractString with
        | some key, some val => result.set key val
        | _, _ => result) Dict.empty
  | _ => Dict.empty

/-- `bool(getattr(node, 'value', default))` -/
def valueTruth (default : Bool) : PyNode → Bool
  | constant value => value.truth
  | attr _ _ => true
  | keyword _ _ => true
  | valued present _ => present
  | _ => default

/-- `_has_super_call(func_node)`, for one node. -/
def callsSuper : PyNode → Bool
  | call (attr value _) _ _ => value.isSuperCall
  | _ => false

/-- `kwargs[arg]`, with `kwargs = {kw.arg: kw.value for kw in call.keywords if kw.arg}`. -/
def keywordValue (keywords : List PyNode) (arg : String) : Option PyNode :=
  keywords.reverse.findSome? fun kw =>
    match kw with
    | keyword (some a) value => if a = arg then some value else none
    | _ => none

end PyNode

/-- `_get_base_class_names(cls_node)` -/
def ClassDef.baseClassNames (c : ClassDef) : List String :=
  c.bases.filterMap fun base =>
    match base with
    | .attr _ attr => some attr
    | .name id => some id
    | _ => none

/-! ## Fields and methods -/

/-- `_extract_columns_dict_fields(dict_node)` -/
def extractColumnsDictFields (keys : List (Option PyNode)) (values : List PyNode) :
    List FieldInfo :=
  (keys.zip values).filterMap fun kv =>
    match truthy (kv.1.bind PyNode.extractString), kv.2 with
    | some name, .call (.attr (.name "fields") attr) _ _ =>
        if attr.toLower ∈ fieldTypesLegacy then some { name, ttype := attr.toLower } else none
    | _, _ => none

/-- `field_name = fields.FieldType(…)` -/
def fieldDeclaration (targets : List PyNode) (value : PyNode) : Option FieldInfo :=
  match targets.head?, value with
  | some (.name fieldName), .call (.attr (.name "fields") attr) args keywords =>
      if attr ∈ fieldTypes then
        let kwarg := PyNode.keywordValue keywords
        let related := (kwarg "related").bind PyNode.extractString
        let compute := (kwarg "compute").bind PyNode.extractString
        some
          { name := fieldName
            ttype := attr.toLower
            related
            compute
            required := ((kwarg "required").map (PyNode.valueTruth false)).getD false
            stored := match kwarg "store" with
              | some store => store.valueTruth true
              | none => compute.isNone && related.isNone
            comodelName :=
              if attr.toLower ∈ relationalFieldTypes then
                match args with
                | arg :: _ => arg.extractString
                | [] => (kwarg "comodel_name").bind PyNode.extractString
              else none }
      else none
  | _, _ => none

/-- What a decorator is called. -/
def PyNode.decoratorName : PyNode → Option String
  | .attr _ last => some ("api." ++ last)
  | .call (.attr _ last) _ _ => some ("api." ++ last)
  | .name id => some id
  | _ => none

/-- The paths of `@api.depends(…)`. -/
def PyNode.decoratorDepends : PyNode → List String
  | .call (.attr _ last) args _ =>
      if last = "depends" then args.filterMap fun arg => truthy arg.extractString else []
  | _ => []

section Class

variable (unparse : PyArguments → Option String) (scope : Dict String String)
  (localDefs : List String)

def methodDeclaration (f : FunctionDef) : MethodInfo :=
  let convention := classifyMethodConvention f.name.text
  { name := f.name.text
    hasSuperCall := f.node.walk.any PyNode.callsSuper
    decorators := f.decoratorList.filterMap PyNode.decoratorName
    coreSymbolRefs := extractCoreSymbolRefs f scope localDefs
    conventionKind := convention.1
    superSafety := convention.2.1
    returnRequired := convention.2.2
    signature := unparse f.args
    depends := f.decoratorList.flatMap PyNode.decoratorDepends }

/-- The variables of the loop. -/
structure ClassRead where
  name : Option String := none
  hadExplicitName : Bool := false
  inherit : List String := []
  inherits : Dict String String := Dict.empty
  isAbstract : Bool
  isTransient : Bool
  fields : List FieldInfo := []
  methods : List MethodInfo := []
  hasColumnsDict : Bool := false

/-- `bool(node.value.value)`, where `node.value` is a constant. -/
def PyNode.constantTruth : PyNode → Option Bool
  | .constant value => some value.truth
  | _ => none

/-- `_columns = {…}` -/
def ClassRead.addColumns (r : ClassRead) : PyNode → ClassRead
  | .dict keys values =>
      { r with fields := r.fields ++ extractColumnsDictFields keys values, hasColumnsDict := true }
  | _ => r

/-- `for target in node.targets` -/
def ClassRead.assign (value : PyNode) (r : ClassRead) : PyNode → ClassRead
  | .name attr =>
      if attr = "_name" then
        { r with
          name := value.extractString
          hadExplicitName := r.hadExplicitName || value.extractString.isSome }
      else if attr = "_inherit" then { r with inherit := value.extractInherit }
      else if attr = "_inherits" then { r with inherits := value.extractInherits }
      else if attr = "_abstract" then { r with isAbstract := value.constantTruth.getD r.isAbstract }
      else if attr = "_transient" then
        { r with isTransient := value.constantTruth.getD r.isTransient }
      else if attr = "_columns" then r.addColumns value
      else r
  | _ => r

def ClassRead.stmt (r : ClassRead) : ClassStmt → ClassRead
  | .assign targets value =>
      let r := targets.foldl (ClassRead.assign value) r
      { r with fields := r.fields ++ (fieldDeclaration targets value).toList }
  | .functionDef f =>
      if PyText.startswith f.name.text "__" then r
      else { r with methods := r.methods ++ [methodDeclaration unparse scope localDefs f] }
  | .other => r

def readClass (c : ClassDef) : ClassRead :=
  c.body.foldl (ClassRead.stmt unparse scope localDefs)
    { isAbstract := "AbstractModel" ∈ c.baseClassNames
      isTransient := "TransientModel" ∈ c.baseClassNames }

/-- `_parse_class(cls_node, module_info, source, scope_map, local_defs)` -/
def parseClass (m : ModuleInfo) (c : ClassDef) : Option ModelInfo :=
  let r := readClass unparse scope localDefs c
  match truthy ((truthy r.name).or r.inherit.head?) with
  | none => none
  | some name =>
      if c.baseClassNames.any (· ∈ modelBaseClasses) ∨ r.inherit ≠ [] ∨ r.inherits.items ≠ [] ∨
          r.hasColumnsDict then
        some
          { name
            module := m.name
            odooVersion := m.odooVersion
            isAbstract := r.isAbstract
            isTransient := r.isTransient
            inherit := r.inherit
            inherits := r.inherits.items
            fields := r.fields
            methods := r.methods
            hadExplicitName := r.hadExplicitName }
      else none

end Class
end OdooSemantic
