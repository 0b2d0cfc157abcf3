import OdooSemantic.Indexer.References

/-!
# The write methods of `Neo4jWriter`, called in any order

`_index_repo` calls the four methods in one order and with one profile list. The methods do
not know that: each takes a list of results and a profile list, and sends the statements of
the results one after the other. A history of calls is therefore a list of statements
(`WriterCall.graph_execAll`), and what holds of every statement holds of every history.
-/

namespace OdooSemantic

/-- `Neo4jWriter.write_stylesheets`: one transaction a batch. -/
def writeStylesheets (ps : List String) (stylesheets : List StylesheetInfo) (g : Graph) : Graph :=
  (chunked neo4jWriteBatchSize stylesheets).foldl (fun g batch => writeStylesheetsBatch ps batch g) g

/-- A call of a write method with its `profiles`. -/
inductive WriterCall where
  | writeResults (ps : List String) (results : List ParseResult)
  | writeViewResults (ps : List String) (results : List ViewParseResult)
  | writeJsGraphResults (ps : List String) (results : List JSGraphResult)
  | writeStylesheets (ps : List String) (stylesheets : List StylesheetInfo)

namespace WriterCall

def exec (g : Graph) : WriterCall → Graph
  | writeResults ps results => OdooSemantic.writeResults ps results g
  | writeViewResults ps results => OdooSemantic.writeViewResults ps results g
  | writeJsGraphResults ps results => OdooSemantic.writeJsGraphResults ps results g
  | writeStylesheets ps stylesheets => OdooSemantic.writeStylesheets ps stylesheets g

def execAll (cs : List WriterCall) (g : Graph) : Graph := cs.foldl exec g

theorem execAll_append (cs ds : List WriterCall) (g : Graph) :
    execAll (cs ++ ds) g = execAll ds (execAll cs g) := List.foldl_append

def profiles : WriterCall → List String
  | writeResults ps _ => ps
  | writeViewResults ps _ => ps
  | writeJsGraphResults ps _ => ps
  | writeStylesheets ps _ => ps

/-- The statements of a call, in the order in which they are sent. -/
def stmts : WriterCall → List Stmt
  | writeResults ps results => (results.flatMap parseResultStmts).map (.code ps)
  | writeViewResults ps results => (results.flatMap viewParseResultStmts).map (.xml ps)
  | writeJsGraphResults ps results => (results.flatMap jsGraphResultStmts).map (.js ps)
  | writeStylesheets ps stylesheets =>
      (chunked neo4jWriteBatchSize stylesheets).flatten.map (.stylesheet ps)

theorem exec_eq (c : WriterCall) (g : Graph) : c.exec g = Stmt.execAll c.stmts g := by
  cases c with
  | writeResults ps results =>
    rw [stmts, Stmt.execAll, List.foldl_map]
    exact writeResults_eq ps results g
  | writeViewResults ps results =>
    rw [stmts, Stmt.execAll, List.foldl_map]
    exact writeViewResults_eq ps results g
  | writeJsGraphResults ps results =>
    rw [stmts, Stmt.execAll, List.foldl_map]
    exact writeJsGraphResults_eq ps results g
  | writeStylesheets ps stylesheets =>
    rw [stmts, Stmt.execAll, List.foldl_map, List.foldl_flatten]
    rfl

theorem graph_execAll (cs : List WriterCall) (g : Graph) :
    execAll cs g = Stmt.execAll (cs.flatMap stmts) g := by
  induction cs generalizing g with
  | nil => rfl
  | cons c cs ih =>
    rw [execAll, List.foldl_cons, ← execAll, ih, exec_eq, List.flatMap_cons]
    exact List.foldl_append.symm

/-! ## Who is written for whom -/

/-- The modules whose results a call writes. -/
def modules : WriterCall → List ModuleKey
  | writeResults _ results => results.map (·.module.key)
  | _ => []

/-- The modules that own the views, templates, components and patches of a call. (Stylesheets
    can do without: they bring the array of their module along.) -/
def hosts : WriterCall → List ModuleKey
  | writeResults _ _ => []
  | writeViewResults _ results => results.flatMap fun r =>
      (r.views.map fun v => ⟨v.module, v.odooVersion⟩)
        ++ r.qweb.map fun q => ⟨q.module, q.odooVersion⟩
  | writeJsGraphResults _ results => results.flatMap fun r =>
      (r.components.map fun c => ⟨c.module, c.odooVersion⟩)
        ++ r.patches.map fun p => ⟨p.module, p.odooVersion⟩
  | writeStylesheets _ _ => []

/-- The parser names every model after the module of its result. -/
def Named : WriterCall → Prop
  | writeResults _ results => ∀ r ∈ results, ∀ m ∈ r.models, m.key.moduleKey = r.module.key
  | _ => True

instance (c : WriterCall) : Decidable c.Named := by
  cases c <;> unfold Named <;> infer_instance

end WriterCall

end OdooSemantic
