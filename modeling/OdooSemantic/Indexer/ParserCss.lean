import OdooSemantic.Indexer.Stylesheets
import OdooSemantic.Indexer.SyntaxTree

/-!
# `src/indexer/parser_css.py`

With the grammar the sections are nodes of the tree, without it they are what two patterns find.
Either way an import goes by the stem of the file, a media block by its condition, a rule by its
selectors, and a block of custom properties by `stem:variables`.

With the grammar the block of custom properties is flushed at every rule, also at one that is to
go into it: a block never has more than one rule.
-/

namespace OdooSemantic
namespace ParserCss

open Regex Stylesheets

/-- What is emitted, and the block of custom properties that is open. -/
structure CssState where
  sections : List Section := []
  varBlock : List (List Char) := []

namespace CssState

/-- `_flush_var_block()` -/
def flush (stem : String) (s : CssState) : CssState :=
  if s.varBlock = [] then s
  else { sections := s.sections ++ [variableSection stem s.varBlock] }

def emit (s : CssState) (section' : Section) : CssState :=
  { s with sections := s.sections ++ [section'] }

end CssState

/-! ## With tree-sitter -/

/-- `_ts_node_text(d, source).lstrip().startswith("--")` -/
def isVarDecl (source : List UInt8) (node : Node) : Bool :=
  "--".toList.isPrefixOf ((node.text source).dropWhile PyText.isSpace)

/-- The block has declarations, and they are custom properties. -/
def onlyVariables (source : List UInt8) (block : Node) : Bool :=
  let decls := ((block.walk none).map Prod.snd).filter fun n => n.type = "declaration"
  decls.any (isVarDecl source) && decls.all (isVarDecl source)

def visit (source : List UInt8) (stem : String) (s : CssState) (node : Node) : CssState :=
  if node.type = "import_statement" then
    (s.flush stem).emit ⟨"import", stem, String.ofList (node.text source)⟩
  else if node.type = "media_statement" then
    let condition := match node.firstChild "media_query_list" with
      | some list => String.ofList (strip (list.text source))
      | none => stem
    (s.flush stem).emit ⟨"media", "@media " ++ condition, String.ofList (node.text source)⟩
  else if node.type = "rule_set" then
    -- the last child of a type counts
    let selectors := node.children.reverse.find? fun c => c.type = "selectors"
    let block := node.children.reverse.find? fun c => c.type = "block"
    let selectorText := (selectors.map fun n => strip (n.text source)).getD []
    if block.any (onlyVariables source) then
      { s.flush stem with varBlock := [node.text source] }
    else
      (s.flush stem).emit ⟨"selector",
        if selectorText = [] then stem else String.ofList selectorText,
        String.ofList (node.text source)⟩
  else s

/-- `_parse_css_treesitter(source, …, file_path)`, its sections. -/
def parseCssTreesitter (source : List UInt8) (root : Node) (filePath : String) : List Section :=
  let stem := PosixPath.stem filePath
  orRaw stem (PyText.decode source)
    ((((root.walk none).map Prod.snd).foldl (visit source stem) {}).flush stem).sections

/-! ## Without -/

variable (isAlnum : Char → Bool)

/-- `@import\s+(?:url\s*\(\s*)?["']([^"']+)["']` -/
def reImport : Regex :=
  seqs [litIgnoreCase "@import", spaces1,
    opt (seqs [litIgnoreCase "url", spaces, lit "(", spaces]), quoted]

/-- `--[\w-]+\s*:` -/
def reVarDecl : Regex := seqs [lit "--", ident isAlnum, spaces, lit ":"]

/-- `(@media\b[^{]*|@[a-z-]+[^{]*|[^@{}\n][^{}]*)\{` -/
def reRule : Regex :=
  .seq (.group (alts [
    seqs [lit "@media", .wordEdge fun c => isAlnum c || c == '_', .star (noneOf "\x7b")],
    seqs [lit "@", plus (.char fun c => 'a' ≤ c && c ≤ 'z' || c == '-'), .star (noneOf "\x7b")],
    .seq (noneOf "@\x7b\x7d\n") (.star (noneOf "\x7b\x7d"))])) (lit "\x7b")

def visitRule (stem : String) (s : CssState) (m : Match) : CssState :=
  let header := strip m.group
  let raw := header ++ ' ' :: block m
  if "@import".toList.isPrefixOf header then s
  else if "@media".toList.isPrefixOf (header.map Char.toLower) then
    (s.flush stem).emit ⟨"media", String.ofList header, String.ofList raw⟩
  else if header.head? = some '@' then (s.flush stem).emit ⟨"raw", stem, String.ofList raw⟩
  else
    let varLines := (reVarDecl isAlnum).finditer raw
    if varLines.length ≠ 0 ∧ varLines.length = raw.count ':' then
      { s with varBlock := s.varBlock ++ [raw] }
    else
      (s.flush stem).emit ⟨"selector",
        String.ofList ((header.map fun c => if c = '\n' then ' ' else c).take 80),
        String.ofList raw⟩

/-- `_parse_css_regex(src, …, file_path)`, its sections. -/
def parseCssRegex (src : List Char) (filePath : String) : List Section :=
  let stem := PosixPath.stem filePath
  orRaw stem src
    ((((reRule isAlnum).finditer src).foldl (visitRule isAlnum stem)
      { sections := importSections reImport stem src }).flush stem).sections

end ParserCss
end OdooSemantic
