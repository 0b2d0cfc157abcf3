import OdooSemantic.Indexer.Models
import OdooSemantic.Indexer.ModuleTree
import OdooSemantic.Lib.PyText

/-!
# `src/indexer/parser_xml.py`, `src/indexer/parser_qweb.py` — views and templates

Both parsers go through the XML files of a module, one for the `<record>` elements of the model
`ir.ui.view`, the other for the `<template>` elements. The id of an element is put behind the name
of the module; the id of what it inherits from is taken as it is written.

What an XML file says is its root element (`ElementTree`); a file that cannot be parsed has none.
-/

namespace OdooSemantic

/-- An element, without its tail. -/
inductive XmlElement where
  | mk (tag : String) (attrib : List (String × String)) (text : Option String)
      (children : List XmlElement)

namespace XmlElement

def tag : XmlElement → String
  | mk tag _ _ _ => tag

def attrib : XmlElement → List (String × String)
  | mk _ attrib _ _ => attrib

def text : XmlElement → Option String
  | mk _ _ text _ => text

def children : XmlElement → List XmlElement
  | mk _ _ _ children => children

/-- `element.get(key, default)` -/
def get (e : XmlElement) (key : String) (default : String := "") : String :=
  (e.attrib.lookup key).getD default

/-- `element.get(key, "").strip()` -/
def strippedAttr (e : XmlElement) (key : String) : String := PyText.strip (e.get key)

mutual

/-- `element.iter(tag)` -/
def iter (name : String) : XmlElement → List XmlElement
  | mk tag attrib text children =>
      (if tag = name then [mk tag attrib text children] else []) ++ iterAll name children

def iterAll (name : String) : List XmlElement → List XmlElement
  | [] => []
  | e :: es => iter name e ++ iterAll name es

end

end XmlElement

namespace ParserXml

open XmlElement

/-- `_VIEW_TYPES` -/
def viewTypes : List String :=
  ["form", "tree", "list", "kanban", "search", "pivot", "graph", "calendar", "gantt", "activity",
    "map"]

/-- The local variables of `_parse_record`. -/
structure RecordFields where
  name : String := ""
  model : String := ""
  inheritXmlid : Option String := none
  viewType : String := "form"
  mode : String := "primary"
  xpaths : List XPathInfo := []

/-- The type of the view that an `arch` begins with; a `<data>` is looked into. -/
def archViewType (arch : XmlElement) : Option String :=
  match arch.children with
  | [] => none
  | first :: _ =>
      if first.tag = "data" then (first.children.head?.map tag).filter (· ∈ viewTypes)
      else if first.tag ∈ viewTypes then some first.tag
      else none

/-- The `<xpath>` elements of an `arch` that have an expression. -/
def xpathsOf (arch : XmlElement) : List XPathInfo :=
  (arch.iter "xpath").filterMap fun x =>
    let expr := x.strippedAttr "expr"
    if expr = "" then none else some ⟨expr, PyText.strip (x.get "position" "inside")⟩

/-- A child of the record. -/
def addField (s : RecordFields) (child : XmlElement) : RecordFields :=
  if child.tag ≠ "field" then s
  else
    let text := PyText.strip (child.text.getD "")
    if child.get "name" = "name" then { s with name := text }
    else if child.get "name" = "model" then { s with model := text }
    else if child.get "name" = "inherit_id" then
      let ref := child.strippedAttr "ref"
      if ref = "" then s else { s with inheritXmlid := some ref, mode := "extension" }
    else if child.get "name" = "arch" then
      { s with
        viewType := (archViewType child).getD s.viewType
        xpaths := s.xpaths ++ xpathsOf child }
    else s

/-- `_parse_record(record, module)` -/
def parseRecord (module : ModuleInfo) (record : XmlElement) : Option ViewInfo :=
  if record.get "model" ≠ "ir.ui.view" then none
  else
    let xmlId := record.strippedAttr "id"
    if xmlId = "" then none
    else
      let s := record.children.foldl addField {}
      if s.model = "" then none
      else some
        { xmlid := module.name ++ "." ++ xmlId
          name := s.name
          model := s.model
          module := module.name
          odooVersion := module.odooVersion
          viewType := s.viewType
          mode := s.mode
          inheritXmlid := s.inheritXmlid
          xpaths := s.xpaths }

/-- `parse_file(filepath, module)` -/
def parseFile (module : ModuleInfo) (root : Option XmlElement) : List ViewInfo :=
  match root with
  | none => []
  | some root => (root.iter "record").filterMap (parseRecord module)

/-- `parse_module(module_info)`; `content` is what `ET.parse` makes of a file. -/
def parseModule (module : ModuleInfo) (tree : List TreeFile)
    (content : TreeFile → Option XmlElement) : ViewParseResult where
  module := module
  views := (files (.ofText module.path) tree).flatMap fun f => parseFile module (content f)

end ParserXml

namespace ParserQweb

/-- `_parse_template(elem, module)` -/
def parseTemplate (module : ModuleInfo) (elem : XmlElement) : Option QWebInfo :=
  let templateId := elem.strippedAttr "id"
  if templateId = "" then none
  else
    let inheritId := elem.strippedAttr "inherit_id"
    some
      { xmlid := module.name ++ "." ++ templateId
        module := module.name
        odooVersion := module.odooVersion
        inheritXmlid := if inheritId = "" then none else some inheritId }

/-- `parse_file(filepath, module)` -/
def parseFile (module : ModuleInfo) (root : Option XmlElement) : List QWebInfo :=
  match root with
  | none => []
  | some root => (root.iter "template").filterMap (parseTemplate module)

/-- `parse_module(module_info)` -/
def parseModule (module : ModuleInfo) (tree : List TreeFile)
    (content : TreeFile → Option XmlElement) : ViewParseResult where
  module := module
  qweb := (files (.ofText module.path) tree).flatMap fun f => parseFile module (content f)

end ParserQweb

end OdooSemantic
