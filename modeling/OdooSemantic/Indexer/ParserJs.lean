import OdooSemantic.Indexer.Stylesheets
import OdooSemantic.Indexer.SyntaxTree

/-!
# `src/indexer/parser_js.py` — the chunks

A file is of the first era whose mark is in it, and its units are the calls and the classes that
the era is known by. A widget that is assigned to nothing is called `widget`, and what has no name
of its own is called by the stem of the file.

The content of a unit is cut from the text by the positions of its bytes. What is handed on as
`JSChunk` is an entity with its windows.
-/

namespace OdooSemantic

/-- An entity of a file, before it is cut. -/
structure JSEntity where
  name : String
  content : String
deriving DecidableEq

namespace ParserJs

/-- `word in source` -/
def contains (word : String) (src : List Char) : Bool := src.tails.any (word.toList.isPrefixOf ·)

/-- `_detect_era(source)` -/
def detectEra (src : List Char) : String :=
  if contains "@odoo-module" src then "era3"
  else if contains "import \x7b" src || contains "import\x7b" src then "era3"
  else if contains "odoo.define(" src then "era2"
  else "era1"

/-- `s.split(".")[-1]` -/
def afterLastDot (cs : List Char) : List Char := (cs.reverse.takeWhile (· ≠ '.')).reverse

/-- ``s.strip("\"'`")`` -/
def unquote (cs : List Char) : List Char :=
  let isQuote (c : Char) : Bool := c == '"' || c == '\'' || c.toNat == 0x60
  ((cs.dropWhile isQuote).reverse.dropWhile isQuote).reverse

/-- `src_str[node.start_byte:node.end_byte]` -/
def slice (src : List Char) (node : Node) : String :=
  String.ofList ((src.take node.endByte).drop node.startByte)

/-- The first string among the arguments of a call. -/
def firstString (source : List UInt8) (node : Node) : Option (List Char) :=
  ((node.firstChild "arguments").bind fun args =>
    args.children.find? fun c => c.type = "string" ∨ c.type = "template_string").map fun c =>
      unquote (c.text source)

/-- `var Name = Widget.extend(…)` -/
def era1Entity (source : List UInt8) : Option Node × Node → Option JSEntity
  | (parent, node) => do
    guard (node.type = "call_expression")
    let func ← node.firstChild "member_expression"
    let prop ← func.firstChild "property_identifier"
    guard (prop.spells source "extend")
    let name := match parent with
      | some parent =>
          if parent.type = "assignment_expression" then
            ((parent.firstChild "member_expression").or (parent.firstChild "identifier")).map
              fun (left : Node) => afterLastDot (left.text source)
          else if parent.type = "variable_declarator" then
            (parent.firstChild "identifier").map (Node.text source)
          else none
      | none => none
    return ⟨(name.map String.ofList).getD "widget", slice (PyText.decode source) node⟩

/-- `odoo.define("module.Name", …)` -/
def era2Entity (source : List UInt8) (stem : String) : Option Node × Node → Option JSEntity
  | (_, node) => do
    guard (node.type = "call_expression")
    let func ← node.firstChild "member_expression"
    let obj ← func.firstChild "identifier"
    let prop ← func.firstChild "property_identifier"
    guard (obj.spells source "odoo" && prop.spells source "define")
    let name := (firstString source node).map fun s => String.ofList (afterLastDot s)
    return ⟨name.getD stem, slice (PyText.decode source) node⟩

/-- `class Name …` and `patch(…, "name", …)` -/
def era3Entity (source : List UInt8) (stem : String) : Option Node × Node → Option JSEntity
  | (_, node) =>
      if node.type = "class_declaration" then
        let name := (node.firstChild "identifier").map fun n => String.ofList (n.text source)
        some ⟨name.getD stem, slice (PyText.decode source) node⟩
      else do
        guard (node.type = "call_expression")
        let func ← node.firstChild "identifier"
        guard (func.spells source "patch")
        return ⟨((firstString source node).map String.ofList).getD stem,
          slice (PyText.decode source) node⟩

/-- The entities of a file of this era. -/
def entities (source : List UInt8) (root : Node) (stem era : String) : List JSEntity :=
  (root.walk none).filterMap
    (if era = "era1" then era1Entity source
      else if era = "era2" then era2Entity source stem
      else era3Entity source stem)

/-- The entities with the pieces each of them is cut into: the whole file where there is none. A
    file that is empty has no piece. -/
def parseFile (source : List UInt8) (root : Node) (filePath : String) :
    String × List (String × List (Nat × String)) :=
  let src := PyText.decode source
  let era := detectEra src
  let stem := PosixPath.stem filePath
  match entities source root stem era with
  | [] => (era, [(stem, Chunking.slidingChunks (String.ofList src))])
  | found => (era, found.map fun e => (e.name, Chunking.emit e.content))

end ParserJs
end OdooSemantic
