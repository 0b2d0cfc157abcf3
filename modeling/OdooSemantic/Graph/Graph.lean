import Mathlib.Data.Finset.Prod
import Mathlib.Data.Finset.Union
import OdooSemantic.Graph.XmlStore
import OdooSemantic.Indexer.Models

/-!
# The graph store

One table a node label, one a relationship type, with exactly the properties that
`writer_neo4j.py` sets. Every label but the two XML ones is created by a `MERGE` on its whole
key and no statement sets a key property afterwards, so these tables are keyed stores; a
lookup that answers `none` says there is no such node. A property that a statement may leave
unset is an `Option`, and `none` is Cypher's `null`.

Relationships without properties are finite sets of key pairs. `INHERITS` carries `order` and,
like `DELEGATES_TO` and `PATCHES`, the `unresolved` marker of a placeholder edge.
-/

namespace OdooSemantic

open KeyedStore FlaggedEdges

/-! ## Node keys and properties -/

structure ModuleKey where
  name : String
  odooVersion : String
deriving DecidableEq

structure ModuleProps where
  repo : Option String := none
  path : Option String := none
  versionRaw : Option String := none
  edition : Option String := none
  viindooEquivalentQname : Option String := none
  lastCommitSha : Option String := none
  profile : Option (List String) := none
deriving DecidableEq

structure ModelKey where
  name : String
  module : String
  odooVersion : String
deriving DecidableEq

structure ModelProps where
  isTransient : Option Bool := none
  isAbstract : Option Bool := none
  hadExplicitName : Option Bool := none
  isDefinition : Option Bool := none
  /-- `coalesce(m.unresolved, false)`. -/
  unresolved : Bool := false
  profile : Option (List String) := none
deriving DecidableEq

/-- Fields and methods: `(name, model, module, odoo_version)`. -/
structure MemberKey where
  name : String
  model : String
  module : String
  odooVersion : String
deriving DecidableEq

structure FieldProps where
  ttype : String
  related : Option String
  compute : Option String
  stored : Bool
  required : Bool
  comodelName : Option String
  profile : Option (List String)
deriving DecidableEq

structure MethodProps where
  hasSuperCall : Bool
  decorators : List String
  conventionKind : String
  superSafety : String
  returnRequired : Bool
  signature : Option String
  depends : List String
  profile : Option (List String)
deriving DecidableEq

structure ViewProps where
  name : String
  model : String
  viewType : String
  mode : String
  xpathsExprs : List String
  xpathsPositions : List String
deriving DecidableEq

structure OWLCompKey where
  name : String
  module : String
  odooVersion : String
deriving DecidableEq

structure OWLCompProps where
  template : Option String := none
  extends' : Option String := none
  boundModel : Option String := none
  filePath : Option String := none
  /-- `coalesce(c.unresolved, false)`. -/
  unresolved : Bool := false
  profile : Option (List String) := none
deriving DecidableEq

structure JSPatchKey where
  target : String
  patchName : String
  module : String
  odooVersion : String
deriving DecidableEq

structure JSPatchProps where
  era : String
  filePath : String
  profile : Option (List String)
deriving DecidableEq

structure StylesheetKey where
  filePath : String
  module : String
  odooVersion : String
deriving DecidableEq

structure StylesheetProps where
  language : String
  selectorCount : Nat
  variableCount : Nat
  importCount : Nat
  mixinCount : Nat
  profile : Option (List String)
deriving DecidableEq

structure CoreSymbolKey where
  qualifiedName : String
  odooVersion : String
deriving DecidableEq

structure CoreSymbolProps where
  kind : String
  signature : Option String
  filePath : Option String
  line : Option Nat
  status : String
  replacementQname : Option String
deriving DecidableEq

/-! ## The graph -/

structure Graph where
  modules : Store ModuleKey ModuleProps := ∅
  models : Store ModelKey ModelProps := ∅
  fields : Store MemberKey FieldProps := ∅
  methods : Store MemberKey MethodProps := ∅
  views : XmlStore ViewProps := {}
  qwebs : XmlStore Unit := {}
  owlComps : Store OWLCompKey OWLCompProps := ∅
  jsPatches : Store JSPatchKey JSPatchProps := ∅
  stylesheets : Store StylesheetKey StylesheetProps := ∅
  coreSymbols : Store CoreSymbolKey CoreSymbolProps := ∅
  dependsOn : Finset (ModuleKey × ModuleKey) := ∅
  modelDefinedIn : Finset (ModelKey × ModuleKey) := ∅
  inherits : Edges ModelKey ModelKey (Option Nat) := ∅
  /-- `DELEGATES_TO {via_field}`: the target is a model and the field it is reached through. -/
  delegatesTo : Edges ModelKey (ModelKey × String) Unit := ∅
  fieldBelongsTo : Finset (MemberKey × ModelKey) := ∅
  methodBelongsTo : Finset (MemberKey × ModelKey) := ∅
  usesCoreSymbol : Finset (MemberKey × CoreSymbolKey) := ∅
  viewDefinedIn : Finset (Nat × ModuleKey) := ∅
  targetsModel : Finset (Nat × ModelKey) := ∅
  qwebDefinedIn : Finset (Nat × ModuleKey) := ∅
  compDefinedIn : Finset (OWLCompKey × ModuleKey) := ∅
  compExtends : Finset (OWLCompKey × OWLCompKey) := ∅
  boundTo : Finset (OWLCompKey × ModelKey) := ∅
  patchDefinedIn : Finset (JSPatchKey × ModuleKey) := ∅
  patches : Edges JSPatchKey OWLCompKey Unit := ∅
  stylesheetDefinedIn : Finset (StylesheetKey × ModuleKey) := ∅
  imports : Finset (StylesheetKey × StylesheetKey) := ∅

namespace Graph

/-- `MATCH (m:Model {name: $name, odoo_version: $v})`. -/
def modelsNamed (g : Graph) (name v : String) : List ModelKey :=
  g.models.keys.filter fun k => k.name = name ∧ k.odooVersion = v

/-- `coalesce(m.unresolved, false)`, at a key. -/
def modelUnresolved (g : Graph) (k : ModelKey) : Bool :=
  match g.models.lookup k with
  | some p => p.unresolved
  | none => false

/-- … `WHERE NOT coalesce(m.unresolved, false)`. -/
def resolvedModels (g : Graph) (name v : String) : List ModelKey :=
  (g.modelsNamed name v).filter fun k => !g.modelUnresolved k

/-- `MATCH (c:OWLComp {name: $name, odoo_version: $v})`. -/
def compsNamed (g : Graph) (name v : String) : List OWLCompKey :=
  g.owlComps.keys.filter fun k => k.name = name ∧ k.odooVersion = v

def compUnresolved (g : Graph) (k : OWLCompKey) : Bool :=
  match g.owlComps.lookup k with
  | some p => p.unresolved
  | none => false

def resolvedComps (g : Graph) (name v : String) : List OWLCompKey :=
  (g.compsNamed name v).filter fun k => !g.compUnresolved k

/-- `cs.status IN ['deprecated', 'removed']`, at a key. -/
def coreSymbolFlagged (g : Graph) (k : CoreSymbolKey) : Bool :=
  match g.coreSymbols.lookup k with
  | some p => p.status = "deprecated" || p.status = "removed"
  | none => false

/-- `MATCH (cs:CoreSymbol {odoo_version: $v}) WHERE cs.qualified_name ENDS WITH '.' + $ref
    AND cs.status IN ['deprecated', 'removed']`. -/
def coreSymbolsFor (g : Graph) (v ref : String) : List CoreSymbolKey :=
  g.coreSymbols.keys.filter fun k =>
    k.odooVersion = v ∧ ('.' :: ref.toList) <:+ k.qualifiedName.toList ∧ g.coreSymbolFlagged k

end Graph

end OdooSemantic
