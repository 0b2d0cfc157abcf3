import OdooSemantic.Graph.XmlLinks
import OdooSemantic.Indexer.ParserXml
import OdooSemantic.Proof.ViewIdentity

/-!
# Ids and the references to them

In Odoo an id without a dot is one of the module it stands in, and so is a reference without a dot.
The parsers put the module in front of every id, and of no reference. So an id and a reference to it
meet where the id is written without the module and the reference with it, and in no other of the
four cases (`xmlids_meet_iff`).

What has met is linked by the writer, if the id is written before the reference is.
-/

namespace OdooSemantic

open XmlStore

/-- The full id that an id or a reference in a file of a module stands for. -/
def qualify (module ref : String) : String :=
  if '.' ∈ ref.toList then ref else module ++ "." ++ ref

/-- A view or a template: the id and the reference as they are written, and what a parser makes of
    them. -/
structure XmlItem where
  id : String
  ref : Option String
  xmlid : String
  inheritXmlid : Option String
deriving DecidableEq

/-- The reference in a child of a record. -/
def childRef (child : XmlElement) : Option String :=
  if child.tag = "field" ∧ child.get "name" = "inherit_id" ∧ child.strippedAttr "ref" ≠ "" then
    some (child.strippedAttr "ref")
  else none

/-- The reference of a record: the last one in it. -/
def recordRef (record : XmlElement) : Option String := (record.children.filterMap childRef).getLast?

/-- The reference of a template. -/
def templateRef (elem : XmlElement) : Option String :=
  if elem.strippedAttr "inherit_id" = "" then none else some (elem.strippedAttr "inherit_id")

/-- The XML files of a module. -/
structure XmlSources where
  module : ModuleInfo
  tree : List TreeFile
  content : TreeFile → Option XmlElement

namespace XmlSources

variable (src : XmlSources)

/-- What `ET.parse` makes of the files of a walk. -/
def roots (files : List TreeFile) : List XmlElement := files.filterMap src.content

def records : List (XmlElement × ViewInfo) :=
  ((src.roots (ParserXml.files (.ofText src.module.path) src.tree)).flatMap
      (·.iter "record")).filterMap fun e =>
    (ParserXml.parseRecord src.module e).map fun v => (e, v)

def elems : List (XmlElement × QWebInfo) :=
  ((src.roots (ParserQweb.files (.ofText src.module.path) src.tree)).flatMap
      (·.iter "template")).filterMap fun e =>
    (ParserQweb.parseTemplate src.module e).map fun q => (e, q)

def views : List XmlItem :=
  src.records.map fun r => ⟨r.1.strippedAttr "id", recordRef r.1, r.2.xmlid, r.2.inheritXmlid⟩

def templates : List XmlItem :=
  src.elems.map fun t => ⟨t.1.strippedAttr "id", templateRef t.1, t.2.xmlid, t.2.inheritXmlid⟩

def items : List XmlItem := src.views ++ src.templates

/-- What the pipeline hands to `write_view_results`. -/
def viewResult : ViewParseResult where
  module := src.module
  views := (ParserXml.parseModule src.module src.tree src.content).views
  qweb := (ParserQweb.parseModule src.module src.tree src.content).qweb

/-- The graph behind it. -/
def graph (profiles : List String) : Graph := writeViewResults profiles [src.viewResult] {}

/-- One of the items declares what the reference stands for. -/
def Declared (ref : String) : Prop :=
  ∃ d ∈ src.items, qualify src.module.name d.id = qualify src.module.name ref

/-- **Ids and references meet**, and so each edge has its base, if that is there. -/
structure XmlidsMeet : Prop where
  denotes : ∀ i ∈ src.items, ∀ r, i.ref = some r →
    i.inheritXmlid = some (qualify src.module.name r)
  meets : ∀ i ∈ src.items, ∀ r, i.ref = some r → ∀ d ∈ src.items,
    qualify src.module.name d.id = qualify src.module.name r → i.inheritXmlid = some d.xmlid
  viewEdges : ∀ profiles, ∀ i ∈ src.views, ∀ r b, i.ref = some r → i.inheritXmlid = some b →
    src.Declared r → (src.graph profiles).views.LinkedTo i.xmlid b src.module.odooVersion
  templateEdges : ∀ profiles, ∀ i ∈ src.templates, ∀ r b, i.ref = some r →
    i.inheritXmlid = some b → src.Declared r →
      (src.graph profiles).qwebs.LinkedTo i.xmlid b src.module.odooVersion

/-- Behind the name of the module, an item of the list up to this one has the id that is referred
    to. -/
def DeclaredBefore (items : List XmlItem) : Prop :=
  ∀ us i vs, items = us ++ i :: vs → ∀ r, i.ref = some r → src.Declared r →
    ∃ d ∈ us ++ [i], src.module.name ++ "." ++ d.id = r

/-- References with a module, ids without, and each id before the references to it. -/
structure WrittenAlike : Prop where
  qualified : ∀ i ∈ src.items, ∀ r, i.ref = some r → '.' ∈ r.toList
  plain : ∀ i ∈ src.items, ∀ r, i.ref = some r → ∀ d ∈ src.items,
    qualify src.module.name d.id = r → '.' ∉ d.id.toList
  views : src.DeclaredBefore src.views
  templates : src.DeclaredBefore src.templates

end XmlSources

/-! ## What the parsers make of an id and of a reference -/

section Parsers

open XmlElement ParserXml

theorem inheritXmlid_addField (s : RecordFields) (child : XmlElement) :
    (addField s child).inheritXmlid = (childRef child).or s.inheritXmlid := by
  unfold addField childRef
  by_cases htag : child.tag = "field"
  · rw [if_neg (not_not_intro htag)]
    dsimp only
    by_cases hname : child.get "name" = "inherit_id"
    · have hne : ¬"inherit_id" = "name" ∧ ¬"inherit_id" = "model" := by decide
      rw [hname, if_neg hne.1, if_neg hne.2, if_pos rfl]
      by_cases href : child.strippedAttr "ref" = ""
      · simp [href]
      · simp [htag, href]
    · rw [if_neg hname, if_neg (c := child.tag = "field" ∧ _) fun h => hname h.2.1]
      split
      · rfl
      · split
        · rfl
        · split <;> rfl
  · rw [if_pos htag, if_neg fun h => htag h.1, Option.none_or]

theorem inheritXmlid_foldl_addField (children : List XmlElement) (s : RecordFields) :
    (children.foldl addField s).inheritXmlid =
      ((children.filterMap childRef).getLast?).or s.inheritXmlid := by
  induction children generalizing s with
  | nil => rfl
  | cons child children ih =>
    rw [List.foldl_cons, ih, inheritXmlid_addField, List.filterMap_cons]
    cases childRef child with
    | none => rfl
    | some ref =>
      rw [Option.some_or]
      cases hrest : (children.filterMap childRef).getLast? with
      | none =>
        rw [List.getLast?_eq_none_iff.mp hrest]
        rfl
      | some last =>
        rw [List.getLast?_cons, hrest]
        rfl

theorem childRef_ne_empty {child : XmlElement} {r : String} (h : childRef child = some r) : r ≠ "" := by
  unfold childRef at h
  split at h
  · rename_i hchild
    exact Option.some.inj h ▸ hchild.2.2
  · exact absurd h (by simp)

theorem recordRef_ne_empty {e : XmlElement} {r : String} (h : recordRef e = some r) : r ≠ "" := by
  obtain ⟨child, -, href⟩ := List.mem_filterMap.mp (List.mem_of_getLast? h)
  exact childRef_ne_empty href

theorem templateRef_ne_empty {e : XmlElement} {r : String} (h : templateRef e = some r) : r ≠ "" := by
  unfold templateRef at h
  split at h
  · exact absurd h (by simp)
  · rename_i hne
    exact Option.some.inj h ▸ hne

theorem parseRecord_eq_some {module : ModuleInfo} {e : XmlElement} {v : ViewInfo}
    (h : parseRecord module e = some v) :
    v.xmlid = module.name ++ "." ++ e.strippedAttr "id" ∧ v.inheritXmlid = recordRef e ∧
      v.odooVersion = module.odooVersion := by
  unfold parseRecord at h
  split at h
  · exact absurd h (by simp)
  · dsimp only at h
    split at h
    · exact absurd h (by simp)
    · split at h
      · exact absurd h (by simp)
      · obtain rfl := Option.some.inj h
        refine ⟨rfl, ?_, rfl⟩
        dsimp only
        rw [inheritXmlid_foldl_addField, Option.or_none]
        rfl

theorem parseTemplate_eq_some {module : ModuleInfo} {e : XmlElement} {q : QWebInfo}
    (h : ParserQweb.parseTemplate module e = some q) :
    q.xmlid = module.name ++ "." ++ e.strippedAttr "id" ∧ q.inheritXmlid = templateRef e ∧
      q.odooVersion = module.odooVersion := by
  unfold ParserQweb.parseTemplate at h
  dsimp only at h
  split at h
  · exact absurd h (by simp)
  · obtain rfl := Option.some.inj h
    unfold templateRef
    dsimp only
    exact ⟨rfl, rfl, rfl⟩

end Parsers

/-! ## A name with a dot -/

theorem length_qualify_lt (module ref : String) : ref.length < (module ++ "." ++ ref).length := by
  simp only [String.length_append]
  have hdot : (".": String).length = 1 := rfl
  omega

theorem dot_of_qualify_eq {module ref : String} (h : ref = qualify module ref) : '.' ∈ ref.toList := by
  by_contra hno
  unfold qualify at h
  rw [if_neg hno] at h
  have hlt := length_qualify_lt module ref
  rw [← h] at hlt
  exact absurd hlt (Nat.lt_irrefl _)

theorem not_dot_of_qualify_eq {module id : String} (h : module ++ "." ++ id = qualify module id) :
    '.' ∉ id.toList := by
  intro hdot
  unfold qualify at h
  rw [if_pos hdot] at h
  have hlt := length_qualify_lt module id
  rw [h] at hlt
  exact absurd hlt (Nat.lt_irrefl _)

/-! ## The items of a module -/

namespace XmlSources

variable {src : XmlSources}

theorem record_spec {r : XmlElement × ViewInfo} (h : r ∈ src.records) :
    r.2.xmlid = src.module.name ++ "." ++ r.1.strippedAttr "id" ∧ r.2.inheritXmlid = recordRef r.1 ∧
      r.2.odooVersion = src.module.odooVersion := by
  obtain ⟨e, -, hparse⟩ := List.mem_filterMap.mp h
  obtain ⟨v, hv, rfl⟩ := Option.map_eq_some_iff.mp hparse
  exact parseRecord_eq_some hv

theorem elem_spec {t : XmlElement × QWebInfo} (h : t ∈ src.elems) :
    t.2.xmlid = src.module.name ++ "." ++ t.1.strippedAttr "id" ∧ t.2.inheritXmlid = templateRef t.1 ∧
      t.2.odooVersion = src.module.odooVersion := by
  obtain ⟨e, -, hparse⟩ := List.mem_filterMap.mp h
  obtain ⟨q, hq, rfl⟩ := Option.map_eq_some_iff.mp hparse
  exact parseTemplate_eq_some hq

/-- The module before the id, nothing before the reference. -/
theorem item_spec {i : XmlItem} (h : i ∈ src.items) :
    i.xmlid = src.module.name ++ "." ++ i.id ∧ i.inheritXmlid = i.ref ∧ i.ref ≠ some "" := by
  cases List.mem_append.mp h with
  | inl h =>
    obtain ⟨r, hr, rfl⟩ := List.mem_map.mp h
    obtain ⟨hxmlid, hinherit, -⟩ := record_spec hr
    dsimp only
    refine ⟨hxmlid, hinherit, fun href => ?_⟩
    have href : recordRef r.1 = some "" := href
    exact recordRef_ne_empty href rfl
  | inr h =>
    obtain ⟨t, ht, rfl⟩ := List.mem_map.mp h
    obtain ⟨hxmlid, hinherit, -⟩ := elem_spec ht
    dsimp only
    refine ⟨hxmlid, hinherit, fun href => ?_⟩
    have href : templateRef t.1 = some "" := href
    exact templateRef_ne_empty href rfl

/-- The files one after the other. -/
theorem flatMap_parseFile {I : Type} {name : String} {parse : XmlElement → Option I}
    {content : TreeFile → Option XmlElement} {parseFile : Option XmlElement → List I}
    (hnone : parseFile none = [])
    (hsome : ∀ root, parseFile (some root) = (root.iter name).filterMap parse)
    (files : List TreeFile) :
    files.flatMap (fun f => parseFile (content f)) =
      ((files.filterMap content).flatMap (·.iter name)).filterMap parse := by
  induction files with
  | nil => rfl
  | cons f files ih =>
    rw [List.flatMap_cons, ih, List.filterMap_cons]
    cases content f with
    | none => rw [hnone, List.nil_append]
    | some root => rw [hsome, List.flatMap_cons, List.filterMap_append]

theorem views_viewResult : src.viewResult.views = src.records.map Prod.snd := by
  have hfiles := @flatMap_parseFile _ "record" (ParserXml.parseRecord src.module) src.content
    (ParserXml.parseFile src.module) rfl (fun _ => rfl)
    (ParserXml.files (.ofText src.module.path) src.tree)
  refine hfiles.trans ?_
  unfold records
  rw [List.map_filterMap]
  refine List.filterMap_congr fun e _ => ?_
  cases ParserXml.parseRecord src.module e <;> rfl

theorem qweb_viewResult : src.viewResult.qweb = src.elems.map Prod.snd := by
  have hfiles := @flatMap_parseFile _ "template" (ParserQweb.parseTemplate src.module) src.content
    (ParserQweb.parseFile src.module) rfl (fun _ => rfl)
    (ParserQweb.files (.ofText src.module.path) src.tree)
  refine hfiles.trans ?_
  unfold elems
  rw [List.map_filterMap]
  refine List.filterMap_congr fun e _ => ?_
  cases ParserQweb.parseTemplate src.module e <;> rfl

theorem views_graph (profiles : List String) : (src.graph profiles).views =
    writeAll (src.records.map fun r => r.2.write profiles) {} := by
  unfold graph
  rw [views_writeViewResults, List.flatMap_cons, List.flatMap_nil, List.append_nil,
    views_viewResult, List.map_map]
  rfl

theorem qwebs_graph (profiles : List String) : (src.graph profiles).qwebs =
    writeAll (src.elems.map fun t => t.2.write profiles) {} := by
  unfold graph
  rw [qwebs_writeViewResults, List.flatMap_cons, List.flatMap_nil, List.append_nil,
    qweb_viewResult, List.map_map]
  rfl

/-! ## Edges -/

section Edges

variable {A P : Type} {pairs : List A} {item : A → XmlItem} {write : A → XmlWrite P}

/-- What an item says of its write. -/
structure Writes (src : XmlSources) (pairs : List A) (item : A → XmlItem)
    (write : A → XmlWrite P) : Prop where
  items : ∀ a ∈ pairs, item a ∈ src.items
  xmlid : ∀ a ∈ pairs, (write a).xmlid = (item a).xmlid
  base : ∀ a ∈ pairs, (write a).base = (item a).ref
  version : ∀ a ∈ pairs, (write a).odooVersion = src.module.odooVersion

/-- The edges of one kind of items. -/
def EdgesResolved (src : XmlSources) (pairs : List A) (item : A → XmlItem)
    (write : A → XmlWrite P) : Prop :=
  ∀ i ∈ pairs.map item, ∀ r b, i.ref = some r → i.inheritXmlid = some b → src.Declared r →
    (writeAll (pairs.map write) ({} : XmlStore P)).LinkedTo i.xmlid b src.module.odooVersion

theorem Writes.declares_iff (h : Writes src pairs item write) {a : A} (ha : a ∈ pairs) {x : String} :
    (write a).Declares x src.module.odooVersion ↔ src.module.name ++ "." ++ (item a).id = x := by
  unfold XmlWrite.Declares
  rw [h.xmlid a ha, h.version a ha, (item_spec (h.items a ha)).1]
  exact ⟨And.left, fun hx => ⟨hx, rfl⟩⟩

theorem Writes.declaredBefore (h : Writes src pairs item write)
    (hedges : EdgesResolved src pairs item write) : src.DeclaredBefore (pairs.map item) := by
  intro us i vs hsplit r href hdeclared
  by_contra hno
  obtain ⟨as, bs, rfl, rfl, hbs⟩ := List.map_eq_append_iff.mp hsplit
  obtain ⟨a, cs, rfl, rfl, rfl⟩ := List.map_eq_cons_iff.mp hbs
  have ha : a ∈ as ++ a :: cs := by simp
  have hinherit : (item a).inheritXmlid = some r := (item_spec (h.items a ha)).2.1.trans href
  have hlinked := hedges (item a) (List.mem_map_of_mem ha) r r href hinherit hdeclared
  rw [List.map_append, List.map_cons, ← h.version a ha] at hlinked
  refine not_linkedTo_writeAll ((h.base a ha).trans href) (fun d hd hdec => hno ?_) hlinked
  rw [h.version a ha] at hdec
  rw [← List.map_singleton, ← List.map_append] at hd
  obtain ⟨a', ha', rfl⟩ := List.mem_map.mp hd
  have hmem : a' ∈ as ++ a :: cs := by
    simp only [List.mem_append, List.mem_cons] at ha' ⊢
    tauto
  refine ⟨item a', ?_, (h.declares_iff hmem).mp hdec⟩
  rw [← List.map_singleton, ← List.map_append]
  exact List.mem_map_of_mem ha'

theorem Writes.edgesResolved (h : Writes src pairs item write)
    (hbefore : src.DeclaredBefore (pairs.map item)) : EdgesResolved src pairs item write := by
  intro i hi r b href hinherit hdeclared
  obtain ⟨a, ha, rfl⟩ := List.mem_map.mp hi
  obtain ⟨as, bs, hsplit⟩ := List.append_of_mem ha
  obtain rfl : b = r := by
    rw [(item_spec (h.items a ha)).2.1, href] at hinherit
    exact (Option.some.inj hinherit).symm
  rw [← h.version a ha, ← h.xmlid a ha]
  have hwrites : pairs.map write = as.map write ++ write a :: bs.map write := by
    rw [hsplit, List.map_append, List.map_cons]
  refine linkedTo_writeAll hwrites (fun us w vs hws hrefs => ?_) ((h.base a ha).trans href)
  obtain ⟨as', bs', hpairs, rfl, hbs⟩ := List.map_eq_append_iff.mp hws
  obtain ⟨a', cs, rfl, rfl, rfl⟩ := List.map_eq_cons_iff.mp hbs
  have ha' : a' ∈ pairs := by
    rw [hpairs]
    simp
  have href' : (item a').ref = some b := (h.base a' ha').symm.trans hrefs.1
  obtain ⟨i, hi, hxmlid⟩ := hbefore (as'.map item) (item a') (cs.map item)
    (by rw [hpairs, List.map_append, List.map_cons]) b href' hdeclared
  rw [← List.map_singleton, ← List.map_append] at hi
  obtain ⟨d, hd, rfl⟩ := List.mem_map.mp hi
  have hmem : d ∈ pairs := by
    rw [hpairs]
    simp only [List.mem_append, List.mem_cons] at hd ⊢
    tauto
  refine ⟨write d, ?_, ?_⟩
  · rw [← List.map_singleton, ← List.map_append]
    exact List.mem_map_of_mem hd
  · rw [h.version a ha]
    exact (h.declares_iff hmem).mpr hxmlid

end Edges

theorem truthy_eq_self {o : Option String} (h : ∀ x, o = some x → x ≠ "") : truthy o = o := by
  cases o with
  | none => rfl
  | some x => exact Option.filter_eq_some_iff.mpr ⟨rfl, decide_eq_true (h x rfl)⟩

theorem writes_records (src : XmlSources) (profiles : List String) :
    Writes src src.records
      (fun r => ⟨r.1.strippedAttr "id", recordRef r.1, r.2.xmlid, r.2.inheritXmlid⟩)
      (fun r => r.2.write profiles) where
  items r hr := List.mem_append_left _ (List.mem_map_of_mem hr)
  xmlid r _ := rfl
  base r hr := by
    dsimp only [ViewInfo.write]
    rw [(record_spec hr).2.1, truthy_eq_self fun x => recordRef_ne_empty]
  version r hr := (record_spec hr).2.2

theorem writes_elems (src : XmlSources) (profiles : List String) :
    Writes src src.elems
      (fun t => ⟨t.1.strippedAttr "id", templateRef t.1, t.2.xmlid, t.2.inheritXmlid⟩)
      (fun t => t.2.write profiles) where
  items t ht := List.mem_append_right _ (List.mem_map_of_mem ht)
  xmlid t _ := rfl
  base t ht := by
    dsimp only [QWebInfo.write]
    rw [(elem_spec ht).2.1, truthy_eq_self fun x => templateRef_ne_empty]
  version t ht := (elem_spec ht).2.2

/-- **Ids and references meet exactly where they are written alike.** -/
theorem xmlids_meet_iff (src : XmlSources) : src.XmlidsMeet ↔ src.WrittenAlike := by
  constructor
  · intro h
    have hqualified : ∀ i ∈ src.items, ∀ r, i.ref = some r → r = qualify src.module.name r := by
      intro i hi r href
      have hdenotes := h.denotes i hi r href
      rw [(item_spec hi).2.1, href] at hdenotes
      exact Option.some.inj hdenotes
    refine ⟨fun i hi r href => dot_of_qualify_eq (hqualified i hi r href), ?_, ?_, ?_⟩
    · intro i hi r href d hd hsame
      have hr := hqualified i hi r href
      have hmeets := h.meets i hi r href d hd (hsame.trans hr)
      rw [(item_spec hi).2.1, href, (item_spec hd).1] at hmeets
      exact not_dot_of_qualify_eq ((Option.some.inj hmeets).symm.trans hsame.symm)
    · refine (writes_records src []).declaredBefore fun i hi r b href hinherit hdeclared => ?_
      have hedge := h.viewEdges [] i hi r b href hinherit hdeclared
      rw [views_graph] at hedge
      exact hedge
    · refine (writes_elems src []).declaredBefore fun i hi r b href hinherit hdeclared => ?_
      have hedge := h.templateEdges [] i hi r b href hinherit hdeclared
      rw [qwebs_graph] at hedge
      exact hedge
  · intro h
    have hqualify : ∀ i ∈ src.items, ∀ r, i.ref = some r → qualify src.module.name r = r := by
      intro i hi r href
      unfold qualify
      rw [if_pos (h.qualified i hi r href)]
    refine ⟨fun i hi r href => ?_, fun i hi r href d hd hsame => ?_, ?_, ?_⟩
    · rw [(item_spec hi).2.1, href, hqualify i hi r href]
    · rw [hqualify i hi r href] at hsame
      have hplain := h.plain i hi r href d hd hsame
      unfold qualify at hsame
      rw [if_neg hplain] at hsame
      rw [(item_spec hi).2.1, href, (item_spec hd).1, hsame]
    · intro profiles i hi r b href hinherit hdeclared
      rw [views_graph]
      exact (writes_records src profiles).edgesResolved h.views i hi r b href hinherit hdeclared
    · intro profiles i hi r b href hinherit hdeclared
      rw [qwebs_graph]
      exact (writes_elems src profiles).edgesResolved h.templates i hi r b href hinherit hdeclared

end XmlSources

namespace PlainReference

/-- A view, and one that inherits from it by its plain id. -/
def src : XmlSources where
  module := { name := "sale", odooVersion := "17.0", repo := "odoo", path := "/odoo/sale",
              depends := [] }
  tree := [{ parts := ["views", "sale.xml"] }]
  content _ := some (.mk "odoo" [] none
    [.mk "record" [("id", "view_form"), ("model", "ir.ui.view")] none
        [.mk "field" [("name", "model")] (some "sale.order") []],
      .mk "record" [("id", "view_form_inherit"), ("model", "ir.ui.view")] none
        [.mk "field" [("name", "model")] (some "sale.order") [],
          .mk "field" [("name", "inherit_id"), ("ref", "view_form")] none []]])

/-- **The reference is not what the id is.** -/
theorem xmlids_apart : ¬src.XmlidsMeet := by
  intro h
  have hdenotes := h.denotes
    ⟨"view_form_inherit", some "view_form", "sale.view_form_inherit", some "view_form"⟩ (by decide)
    "view_form" rfl
  exact absurd hdenotes (by decide)

end PlainReference

end OdooSemantic
