import Mathlib.Data.List.Basic

/-!
# `src/indexer/models.py` — what the parsers hand to the writers

The dataclasses, field for field, less the raw text that only the embedding chunks read
(`source_definition`, `source_code`, `arch`, `content`): the graph writer never looks at it
and the chunk list is carried beside the parse result (`Indexer/Pipeline.lean`).

A Python `dict[str, str]` is its list of items in insertion order. `None` is `none`; the
writers test the optional references by truth value, so an empty string counts as absent
(`truthy`).
-/

namespace OdooSemantic

structure ModuleInfo where
  name : String
  odooVersion : String
  repo : String
  path : String
  depends : List String
  versionRaw : String := ""
  edition : String := "community"
  viindooEquivalentQname : Option String := none
  commitSha : Option String := none
deriving DecidableEq

structure FieldInfo where
  name : String
  ttype : String
  related : Option String := none
  compute : Option String := none
  stored : Bool := true
  required : Bool := false
  comodelName : Option String := none
deriving DecidableEq

structure MethodInfo where
  name : String
  hasSuperCall : Bool := false
  decorators : List String := []
  coreSymbolRefs : List String := []
  conventionKind : String := "private"
  superSafety : String := "usually"
  returnRequired : Bool := false
  signature : Option String := none
  depends : List String := []
deriving DecidableEq

structure ModelInfo where
  name : String
  module : String
  odooVersion : String
  inherit : List String := []
  /-- `_inherits`: delegated model ↦ the field it is reached through. -/
  inherits : List (String × String) := []
  fields : List FieldInfo := []
  methods : List MethodInfo := []
  isAbstract : Bool := false
  isTransient : Bool := false
  hadExplicitName : Bool := false
deriving DecidableEq

structure ParseResult where
  module : ModuleInfo
  models : List ModelInfo := []
deriving DecidableEq

structure XPathInfo where
  expr : String
  position : String
deriving DecidableEq

structure ViewInfo where
  xmlid : String
  name : String
  model : String
  module : String
  odooVersion : String
  viewType : String
  mode : String
  inheritXmlid : Option String
  xpaths : List XPathInfo := []
deriving DecidableEq

structure QWebInfo where
  xmlid : String
  module : String
  odooVersion : String
  inheritXmlid : Option String := none
deriving DecidableEq

structure ViewParseResult where
  module : ModuleInfo
  views : List ViewInfo := []
  qweb : List QWebInfo := []
deriving DecidableEq

structure JSPatchInfo where
  target : String
  patchName : String
  module : String
  odooVersion : String
  era : String
  filePath : String
deriving DecidableEq

structure OWLCompInfo where
  name : String
  module : String
  odooVersion : String
  template : Option String := none
  extends' : Option String := none
  boundModel : Option String := none
  filePath : String := ""
deriving DecidableEq

structure JSGraphResult where
  module : ModuleInfo
  patches : List JSPatchInfo := []
  components : List OWLCompInfo := []
deriving DecidableEq

structure StylesheetInfo where
  filePath : String
  module : String
  odooVersion : String
  language : String
  selectorCount : Nat := 0
  variableCount : Nat := 0
  importCount : Nat := 0
  mixinCount : Nat := 0
  imports : List String := []
deriving DecidableEq

structure CoreSymbolInfo where
  qualifiedName : String
  kind : String
  odooVersion : String
  signature : Option String := none
  filePath : Option String := none
  line : Option Nat := none
  status : String := "stable"
  replacementQname : Option String := none
deriving DecidableEq

/-- Python truth of an optional string: `None` and `""` are both false. -/
def truthy (s : Option String) : Option String := s.filter (· ≠ "")

end OdooSemantic
