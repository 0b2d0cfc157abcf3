import OdooSemantic.Indexer.Models
import OdooSemantic.Indexer.ParserCss
import OdooSemantic.Indexer.ParserLess
import OdooSemantic.Indexer.ParserScss
import OdooSemantic.Indexer.StylesheetImports

/-!
# What the stylesheet parsers count

The `StylesheetInfo` that the parsers return beside the chunks. The imports of a SCSS or LESS file
are the files that they were resolved to, or what is written where there is no such file; those of a
CSS file are what is written.
-/

namespace OdooSemantic

inductive SheetLanguage where
  | css
  | scss
  | less
deriving DecidableEq

def SheetLanguage.name : SheetLanguage → String
  | css => "css"
  | scss => "scss"
  | less => "less"

/-- A file that a parser is called for. -/
structure SheetFile where
  language : SheetLanguage
  filePath : String
  module : String
  odooVersion : String
  /-- `read_bytes()`, or nothing where that raises `OSError`. -/
  raw : Option (List UInt8)

namespace SheetFile

/-- The info with nothing in it. -/
def emptyInfo (f : SheetFile) : StylesheetInfo where
  filePath := f.filePath
  module := f.module
  odooVersion := f.odooVersion
  language := f.language.name

end SheetFile

open Regex Stylesheets StylesheetImports

/-! ## CSS -/

namespace ParserCss

/-- `.strip("\"'")` -/
def stripQuotes (cs : List Char) : List Char :=
  let isQuote (c : Char) : Bool := c == '"' || c == '\''
  ((cs.dropWhile isQuote).reverse.dropWhile isQuote).reverse

/-- The path of an `import_statement`. -/
def importPath (source : List UInt8) (node : Node) : Option String :=
  (node.children.find? fun c => c.type = "string_value" || c.type = "call_expression").map fun c =>
    String.ofList (stripQuotes (c.text source))

/-- How many custom properties a block has. -/
def varDecls (source : List UInt8) (block : Node) : Nat :=
  ((block.walk none).map Prod.snd).countP fun n => n.type = "declaration" && isVarDecl source n

def count (source : List UInt8) (info : StylesheetInfo) (node : Node) : StylesheetInfo :=
  if node.type = "import_statement" then
    { info with
      importCount := info.importCount + 1
      imports := info.imports ++ (importPath source node).toList }
  else if node.type = "rule_set" then
    { info with
      selectorCount := info.selectorCount + 1
      variableCount := info.variableCount +
        ((node.children.reverse.find? fun c => c.type = "block").map (varDecls source)).getD 0 }
  else info

/-- `_parse_css_treesitter(source, …)`, its info. -/
def cssTreesitterInfo (source : List UInt8) (root : Node) (f : SheetFile) : StylesheetInfo :=
  ((root.walk none).map Prod.snd).foldl (count source) f.emptyInfo

variable (isAlnum : Char → Bool)

def countRule (info : StylesheetInfo) (m : Match) : StylesheetInfo :=
  let header := strip m.group
  if header.head? = some '@' then info
  else
    { info with
      selectorCount := info.selectorCount + 1
      variableCount := info.variableCount +
        ((reVarDecl isAlnum).finditer (header ++ ' ' :: block m)).length }

/-- `_parse_css_regex(src, …)`, its info. -/
def cssRegexInfo (src : List Char) (f : SheetFile) : StylesheetInfo :=
  let imports := (reImport.finditer src).map fun m => String.ofList m.group
  ((reRule isAlnum).finditer src).foldl (countRule isAlnum)
    { f.emptyInfo with importCount := imports.length, imports }

end ParserCss

/-! ## SCSS and LESS -/

section Resolved

variable (resolveImport : String → String → Except ResolveError (Option String))

/-- `resolved or m.group(1)`, match by match. -/
def resolvedImports (reImport : Regex) (src : List Char) (filePath : String) :
    Except ResolveError (List String) :=
  (reImport.finditer src).mapM fun m =>
    (resolveImport (String.ofList m.group) filePath).map (·.getD (String.ofList m.group))

end Resolved

variable (files : FileTree) (isAlnum : Char → Bool)

/-- `_parse_scss_regex(src, …)`, its info. -/
def ParserScss.scssInfo (src : List Char) (f : SheetFile) : Except ResolveError StylesheetInfo :=
  (resolvedImports (resolveScssImport files) ParserScss.reImport src f.filePath).map fun imports =>
    { f.emptyInfo with
      selectorCount := (ParserScss.reSelector.finditer src).length
      variableCount := (PyText.linesFrom [] src).countP (ParserScss.reScssVar isAlnum).isMatch
      importCount := imports.length
      mixinCount := ((ParserScss.reMixinDef isAlnum).finditer src).length
      imports }

/-- `_parse_less_regex(src, …)`, its info. -/
def ParserLess.lessInfo (src : List Char) (f : SheetFile) : Except ResolveError StylesheetInfo :=
  (resolvedImports (resolveLessImport files) ParserLess.reImport src f.filePath).map fun imports =>
    { f.emptyInfo with
      selectorCount := (ParserLess.reSelector.finditer src).countP fun m =>
        !(ParserLess.reMixinDefShape isAlnum).isMatch (strip m.group)
      variableCount := (PyText.linesFrom [] src).countP (ParserLess.reLessVar isAlnum).isMatch
      importCount := imports.length
      mixinCount := ((ParserLess.reMixinDef isAlnum).finditer src).length
      imports }

/-- `parse_file(filepath, module_info)` of the parser for the file, its info. `parseTree` gives nothing
    without the grammar, and where it raises. -/
def SheetFile.parse (parseTree : List UInt8 → Option Node) (f : SheetFile) :
    Except ResolveError StylesheetInfo :=
  match f.raw with
  | none => .ok f.emptyInfo
  | some raw =>
      let src := PyText.decode raw
      match f.language with
      | .css => .ok (match parseTree raw with
          | some root => ParserCss.cssTreesitterInfo raw root f
          | none => ParserCss.cssRegexInfo isAlnum src f)
      | .scss => ParserScss.scssInfo files isAlnum src f
      | .less => ParserLess.lessInfo files isAlnum src f

end OdooSemantic
