import OdooSemantic.Indexer.Models
import OdooSemantic.Indexer.ParserCss
import OdooSemantic.Indexer.ParserJs
import OdooSemantic.Indexer.ParserLess
import OdooSemantic.Indexer.ParserScss
import OdooSemantic.Indexer.WriterPgvector

/-!
# From the sources of a module to its embedding chunks

`make_chunks` and its siblings in `src/indexer/writer_pgvector.py`, over what the parsers of
`src/indexer/` find, in the order in which `src/indexer/pipeline.py` puts them together.

What is made of the Python and XML files is taken as it comes, with the texts that only the chunks
read. Of the files under `static/` every parser takes those it is for, in the order of their paths.
What is not decided in these files is in `ParserEnv`: the grammars, and the tables of Unicode.
-/

namespace OdooSemantic

/-- What the parsers take from elsewhere. -/
structure ParserEnv where
  /-- `str.isalnum` -/
  isAlnum : Char → Bool
  /-- `str.capitalize` -/
  capitalize : String → String
  /-- Nothing where the grammar is not installed or has failed. -/
  parseCss : List UInt8 → Option Node
  parseJs : List UInt8 → Node

structure MethodSource where
  name : String
  sourceCode : Option String := none

structure FieldSource where
  name : String
  ttype : String
  sourceDefinition : Option String := none

/-- A class body: a model may have more than one in a module. -/
structure ModelSource where
  name : String
  methods : List MethodSource := []
  fields : List FieldSource := []

structure ViewSource where
  xmlid : String
  model : String
  viewType : String
  inheritXmlid : Option String := none
  arch : Option String := none
  filePath : Option String := none

structure QWebSource where
  xmlid : String
  content : Option String := none
  filePath : Option String := none

/-- A file under `static/`, by its path there. -/
structure StaticFile where
  path : String
  parts : List String
  size : Nat
  /-- Nothing where it cannot be read. -/
  bytes : Option (List UInt8)

structure ModuleSource where
  name : String
  odooVersion : String
  path : String
  models : List ModelSource := []
  views : List ViewSource := []
  qweb : List QWebSource := []
  /-- Sorted. -/
  static : List StaticFile := []

/-- What is embedded under one name: the pieces are numbered. -/
structure SourceUnit where
  chunkType : String
  entityName : String
  modelName : Option String
  filePath : String
  pieces : List (Nat × String)

namespace SourceUnit

/-- What tells a unit from others, if anything does. -/
def label (u : SourceUnit) : String × String × String := (u.chunkType, u.entityName, u.filePath)

def chunks (module version : String) (u : SourceUnit) : List EmbeddingChunk :=
  u.pieces.map fun (idx, content) =>
    { chunkType := u.chunkType, module, odooVersion := version, entityName := u.entityName,
      modelName := u.modelName, filePath := u.filePath, chunkIdx := idx, content }

end SourceUnit

namespace ModuleSource

open Chunking

/-- `text or default` -/
def orElse (text : Option String) (default : String) : String := (truthy text).getD default

variable (env : ParserEnv) (m : ModuleSource)

def methodUnit (model : ModelSource) (method : MethodSource) : SourceUnit where
  chunkType := "method"
  entityName := model.name ++ "." ++ method.name
  modelName := some model.name
  filePath := m.path
  pieces := emit ("[" ++ m.name ++ "] " ++ model.name ++ "." ++ method.name ++ " (" ++
    m.odooVersion ++ ")\n" ++ orElse method.sourceCode ("def " ++ method.name ++ "(self): ..."))

def fieldUnit (model : ModelSource) (fld : FieldSource) : SourceUnit where
  chunkType := "field"
  entityName := model.name ++ "." ++ fld.name
  modelName := some model.name
  filePath := m.path
  pieces := emit ("[" ++ m.name ++ "] " ++ model.name ++ ": " ++ fld.name ++ " (" ++ fld.ttype ++
    ")\n" ++ orElse fld.sourceDefinition
      (fld.name ++ " = fields." ++ env.capitalize fld.ttype ++ "(...)"))

def viewUnit (view : ViewSource) : SourceUnit where
  chunkType := "view"
  entityName := view.xmlid
  modelName := some view.model
  filePath := orElse view.filePath m.path
  pieces := emit ("[" ++ m.name ++ "] " ++ view.xmlid ++ " (" ++ view.viewType ++
    ((truthy view.inheritXmlid).map (", inherit=" ++ ·)).getD "" ++ ")\n" ++
    orElse view.arch ("<!-- arch missing for " ++ view.xmlid ++ " -->"))

def qwebUnit (qweb : QWebSource) : SourceUnit where
  chunkType := "qweb"
  entityName := qweb.xmlid
  modelName := none
  filePath := orElse qweb.filePath m.path
  pieces := emit ("[" ++ m.name ++ "] " ++ qweb.xmlid ++ "\n" ++
    orElse qweb.content ("<!-- content missing for " ++ qweb.xmlid ++ " -->"))

/-- `_MAX_JS_BYTES`, and the same for the stylesheets. -/
def maxBytes : Nat := 200000

/-- The files that a parser takes: of its extension, in none of `_SKIP_DIRS`, and not too long. -/
def filesFor (extension : String) (files : List StaticFile) : List StaticFile :=
  files.filter fun f => PyText.endswith (f.parts.getLast?.getD "") extension &&
    f.parts.all (fun part => part ≠ "lib" ∧ part ≠ "tests") && f.size ≤ maxBytes

/-- `parser_js.parse_module(module_info)`: only what is under `static/src/`. -/
def jsUnits : List SourceUnit :=
  (filesFor ".js" (m.static.filterMap fun f =>
    match f.parts with
    | "src" :: parts => some { f with parts }
    | _ => none)).flatMap fun f =>
      match f.bytes with
      | none => []
      | some source =>
          let (era, found) := ParserJs.parseFile source (env.parseJs source) f.path
          found.map fun (entityName, pieces) =>
            ⟨"js_" ++ era, entityName, none, f.path, pieces⟩

/-- The units of the stylesheets of one language, one for each section. -/
def styleUnits (extension chunkType : String) (entityName : Section → String)
    (parse : List UInt8 → String → List Section) : List SourceUnit :=
  (filesFor extension m.static).flatMap fun f =>
    match f.bytes with
    | none => []
    | some source => (parse source f.path).map fun s =>
        ⟨chunkType, entityName s, none, f.path, emit s.content⟩

/-- `make_css_chunks` over `parser_css.parse_module(module_info)` -/
def cssUnits : List SourceUnit :=
  m.styleUnits ".css" "css" (·.entity) fun source path =>
    match env.parseCss source with
    | some root => ParserCss.parseCssTreesitter source root path
    | none => ParserCss.parseCssRegex env.isAlnum (PyText.decode source) path

/-- `make_scss_chunks` over `parser_scss.parse_module(module_info)` -/
def scssUnits : List SourceUnit :=
  m.styleUnits ".scss" "scss" (fun s => s.kind ++ ":" ++ s.entity) fun source path =>
    ParserScss.parseScssRegex env.isAlnum (PyText.decode source) path

/-- `make_less_chunks` over `parser_less.parse_module(module_info)` -/
def lessUnits : List SourceUnit :=
  m.styleUnits ".less" "less" (fun s => s.kind ++ ":" ++ s.entity) fun source path =>
    ParserLess.parseLessRegex env.isAlnum (PyText.decode source) path

/-- `make_chunks`, and the stylesheets behind it. -/
def units : List SourceUnit :=
  (m.models.flatMap fun model =>
    model.methods.map (m.methodUnit model) ++ model.fields.map (m.fieldUnit env model)) ++
  m.views.map m.viewUnit ++ m.qweb.map m.qwebUnit ++ m.jsUnits env ++
  m.cssUnits env ++ m.scssUnits env ++ m.lessUnits env

/-- The chunks that are handed to `write_module_embeddings`. -/
def makeChunks : List EmbeddingChunk := (m.units env).flatMap (·.chunks m.name m.odooVersion)

end ModuleSource
end OdooSemantic
