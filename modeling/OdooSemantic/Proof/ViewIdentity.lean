import OdooSemantic.Graph.XmlIdentity
import OdooSemantic.Indexer.WriterNeo4j

/-!
# `write_view_results` and the identity of its nodes

The store-level account of `Graph/XmlIdentity.lean`, carried to the writer: a sequence of
`write_view_results` calls is, for the `View` table and for the `QWebTmpl` table each, a
sequence of writes of that table alone. What the calls of a run do to single-row lookups by
`(xmlid, odoo_version)` is then the store-level theorem, twice.
-/

namespace OdooSemantic

open XmlStore

def ViewInfo.write (ps : List String) (v : ViewInfo) : XmlWrite ViewProps where
  profiles := ps
  xmlid := v.xmlid
  odooVersion := v.odooVersion
  module := v.module
  props := v.props
  base := truthy v.inheritXmlid

def QWebInfo.write (ps : List String) (q : QWebInfo) : XmlWrite Unit where
  profiles := ps
  xmlid := q.xmlid
  odooVersion := q.odooVersion
  module := q.module
  props := ()
  base := truthy q.inheritXmlid

/-- The arguments of one `write_view_results` call. -/
structure ViewBatch where
  profiles : List String
  results : List ViewParseResult

namespace ViewBatch

def viewWrites (b : ViewBatch) : List (XmlWrite ViewProps) :=
  b.results.flatMap fun r => r.views.map (ViewInfo.write b.profiles)

def qwebWrites (b : ViewBatch) : List (XmlWrite Unit) :=
  b.results.flatMap fun r => r.qweb.map (QWebInfo.write b.profiles)

def exec (g : Graph) (b : ViewBatch) : Graph := writeViewResults b.profiles b.results g

/-- A run of calls. -/
def execAll (bs : List ViewBatch) (g : Graph) : Graph := bs.foldl exec g

end ViewBatch

/-! ## A call, table by table -/

theorem views_execAll_viewStmts (ps : List String) (v : ViewInfo) (g : Graph) :
    (XmlStmt.execAll ps (viewStmts v) g).views = g.views.write (v.write ps) := by
  unfold viewStmts XmlStore.write ViewInfo.write
  cases truthy v.inheritXmlid <;> split_ifs <;> rfl

theorem qwebs_execAll_viewStmts (ps : List String) (v : ViewInfo) (g : Graph) :
    (XmlStmt.execAll ps (viewStmts v) g).qwebs = g.qwebs := by
  unfold viewStmts
  cases truthy v.inheritXmlid <;> split_ifs <;> rfl

theorem views_execAll_qwebStmts (ps : List String) (q : QWebInfo) (g : Graph) :
    (XmlStmt.execAll ps (qwebStmts q) g).views = g.views := by
  unfold qwebStmts
  cases truthy q.inheritXmlid <;> rfl

theorem qwebs_execAll_qwebStmts (ps : List String) (q : QWebInfo) (g : Graph) :
    (XmlStmt.execAll ps (qwebStmts q) g).qwebs = g.qwebs.write (q.write ps) := by
  unfold qwebStmts XmlStore.write QWebInfo.write
  cases truthy q.inheritXmlid <;> rfl

theorem views_execAll_flatMap_viewStmts (ps : List String) (vs : List ViewInfo) (g : Graph) :
    (XmlStmt.execAll ps (vs.flatMap viewStmts) g).views =
      writeAll (vs.map (ViewInfo.write ps)) g.views := by
  induction vs generalizing g with
  | nil => rfl
  | cons v vs ih =>
    rw [List.flatMap_cons, XmlStmt.execAll_append, ih, views_execAll_viewStmts]
    rfl

theorem qwebs_execAll_flatMap_viewStmts (ps : List String) (vs : List ViewInfo) (g : Graph) :
    (XmlStmt.execAll ps (vs.flatMap viewStmts) g).qwebs = g.qwebs := by
  induction vs generalizing g with
  | nil => rfl
  | cons v vs ih => rw [List.flatMap_cons, XmlStmt.execAll_append, ih, qwebs_execAll_viewStmts]

theorem views_execAll_flatMap_qwebStmts (ps : List String) (qs : List QWebInfo) (g : Graph) :
    (XmlStmt.execAll ps (qs.flatMap qwebStmts) g).views = g.views := by
  induction qs generalizing g with
  | nil => rfl
  | cons q qs ih => rw [List.flatMap_cons, XmlStmt.execAll_append, ih, views_execAll_qwebStmts]

theorem qwebs_execAll_flatMap_qwebStmts (ps : List String) (qs : List QWebInfo) (g : Graph) :
    (XmlStmt.execAll ps (qs.flatMap qwebStmts) g).qwebs =
      writeAll (qs.map (QWebInfo.write ps)) g.qwebs := by
  induction qs generalizing g with
  | nil => rfl
  | cons q qs ih =>
    rw [List.flatMap_cons, XmlStmt.execAll_append, ih, qwebs_execAll_qwebStmts]
    rfl

theorem views_writeViewParseResult (ps : List String) (r : ViewParseResult) (g : Graph) :
    (writeViewParseResult ps r g).views = writeAll (r.views.map (ViewInfo.write ps)) g.views := by
  rw [writeViewParseResult, viewParseResultStmts, XmlStmt.execAll_append,
    views_execAll_flatMap_qwebStmts, views_execAll_flatMap_viewStmts]

theorem qwebs_writeViewParseResult (ps : List String) (r : ViewParseResult) (g : Graph) :
    (writeViewParseResult ps r g).qwebs = writeAll (r.qweb.map (QWebInfo.write ps)) g.qwebs := by
  rw [writeViewParseResult, viewParseResultStmts, XmlStmt.execAll_append,
    qwebs_execAll_flatMap_qwebStmts, qwebs_execAll_flatMap_viewStmts]

theorem views_writeViewResults (ps : List String) (rs : List ViewParseResult) (g : Graph) :
    (writeViewResults ps rs g).views =
      writeAll (rs.flatMap fun r => r.views.map (ViewInfo.write ps)) g.views := by
  induction rs generalizing g with
  | nil => rfl
  | cons r rs ih =>
    rw [writeViewResults, List.foldl_cons, ← writeViewResults, ih, List.flatMap_cons,
      writeAll_append, views_writeViewParseResult]

theorem qwebs_writeViewResults (ps : List String) (rs : List ViewParseResult) (g : Graph) :
    (writeViewResults ps rs g).qwebs =
      writeAll (rs.flatMap fun r => r.qweb.map (QWebInfo.write ps)) g.qwebs := by
  induction rs generalizing g with
  | nil => rfl
  | cons r rs ih =>
    rw [writeViewResults, List.foldl_cons, ← writeViewResults, ih, List.flatMap_cons,
      writeAll_append, qwebs_writeViewParseResult]

/-! ## A run of calls -/

namespace ViewBatch

theorem views_execAll (bs : List ViewBatch) (g : Graph) :
    (execAll bs g).views = writeAll (bs.flatMap viewWrites) g.views := by
  induction bs generalizing g with
  | nil => rfl
  | cons b bs ih =>
    rw [execAll, List.foldl_cons, ← execAll, ih, List.flatMap_cons, writeAll_append, exec,
      views_writeViewResults, viewWrites]

theorem qwebs_execAll (bs : List ViewBatch) (g : Graph) :
    (execAll bs g).qwebs = writeAll (bs.flatMap qwebWrites) g.qwebs := by
  induction bs generalizing g with
  | nil => rfl
  | cons b bs ih =>
    rw [execAll, List.foldl_cons, ← execAll, ih, List.flatMap_cons, writeAll_append, exec,
      qwebs_writeViewResults, qwebWrites]

/-- What the calls promise of both XML tables: one node under each declared
    `(xmlid, odoo_version)`, and no written node marked unresolved. -/
def Identity (bs : List ViewBatch) (g : Graph) : Prop :=
  WellIdentified (fun x v => ∃ w ∈ bs.flatMap viewWrites, w.Declares x v) g.views ∧
    WellIdentified (fun x v => ∃ w ∈ bs.flatMap qwebWrites, w.Declares x v) g.qwebs

/-- **Identity holds in exactly the graphs whose run declared every view and every template,
if at all, no later than the first write that inherits from it.** -/
theorem identity_iff_declaredFirst (bs : List ViewBatch) :
    Identity bs (execAll bs {}) ↔
      DeclaredFirst (bs.flatMap viewWrites) ∧ DeclaredFirst (bs.flatMap qwebWrites) := by
  unfold Identity
  rw [views_execAll, qwebs_execAll]
  exact and_congr wellIdentified_iff wellIdentified_iff

/-- A child, then its base, then a second child, in three calls. -/
def childBaseChild : List ViewBatch :=
  let view (xmlid : String) (base : Option String) : ViewInfo :=
    { xmlid, name := xmlid, model := "", module := "sale", odooVersion := "17.0",
      viewType := "form", mode := "primary", inheritXmlid := base }
  let call (v : ViewInfo) : ViewBatch :=
    { profiles := ["odoo_17"],
      results := [{ module := { name := "sale", odooVersion := "17.0", repo := "odoo",
                                path := "/srv/odoo/sale", depends := [] },
                    views := [v] }] }
  [call (view "sale.child" (some "sale.base")), call (view "sale.base" none),
    call (view "sale.other" (some "sale.base"))]

/-- The base keeps the mark its first child's placeholder brought, so the second child finds
    nothing to link to and plants a second `View` beside it. -/
theorem childBaseChild_not_identity : ¬ Identity childBaseChild (execAll childBaseChild {}) := by
  intro h
  have hdeclared : ∃ w ∈ childBaseChild.flatMap viewWrites, w.Declares "sale.base" "17.0" := by
    simp [childBaseChild, viewWrites, ViewInfo.write, XmlWrite.Declares]
  have hone := h.1.unique "sale.base" "17.0" hdeclared
  revert hone
  decide

end ViewBatch

end OdooSemantic
