import OdooSemantic.Indexer.Stylesheets

/-!
# `src/indexer/parser_scss.py`

The sections come pattern by pattern, not in the order of the file. A mixin goes by its name, a
media block by its header and a rule by the first 80 characters of its selectors; an import, an
`@include` and an `@extend` go by the stem of the file, all of them alike.
-/

namespace OdooSemantic
namespace ParserScss

open Regex Stylesheets

variable (isAlnum : Char → Bool)

/-- `^\s*\$[\w-]+\s*:` -/
def reScssVar : Regex := seqs [.lineStart, spaces, lit "$", ident isAlnum, spaces, lit ":"]

/-- `@mixin\s+([\w-]+)\s*(?:\([^)]*\))?\s*\{` -/
def reMixinDef : Regex :=
  seqs [lit "@mixin", spaces1, .group (ident isAlnum), spaces, opt parens, spaces, lit "\x7b"]

/-- `@include\s+[\w-]+(?:\([^)]*\))?\s*;` -/
def reInclude : Regex :=
  seqs [lit "@include", spaces1, ident isAlnum, opt parens, spaces, lit ";"]

/-- `@extend\s+[^;]+;` -/
def reExtend : Regex := seqs [lit "@extend", spaces1, plus (noneOf ";"), lit ";"]

/-- `@(?:import|use|forward)\s+["']([^"']+)["']` -/
def reImport : Regex :=
  seqs [lit "@", alts (["import", "use", "forward"].map litIgnoreCase), spaces1, quoted]

/-- `^([^@$\s{}\n][^{}\n]*)\s*\{` -/
def reSelector : Regex :=
  seqs [.lineStart,
    .group (seqs [.char fun c => !("@$\x7b\x7d".toList.contains c || PyText.isSpace c),
      .star (noneOf "\x7b\x7d\n")]), spaces, lit "\x7b"]

/-- `raw` is the match, without the space that the other blocks get behind their headers. -/
def mixinSection (m : Match) : Section :=
  ⟨"mixin", String.ofList m.group, String.ofList (m.text.dropLast ++ block m)⟩

/-- `_parse_scss_regex(src, …, file_path)`, its sections. -/
def parseScssRegex (src : List Char) (filePath : String) : List Section :=
  let stem := PosixPath.stem filePath
  orRaw stem src (
    variableSections (reScssVar isAlnum).isMatch stem [] (PyText.linesFrom [] src) ++
    importSections reImport stem src ++
    ((reMixinDef isAlnum).finditer src).map mixinSection ++
    textSections "include" (reInclude isAlnum) stem src ++
    textSections "extend" reExtend stem src ++
    (reMedia.finditer src).map (blockSection "media" id) ++
    (reSelector.finditer src).map (blockSection "selector" (·.take 80)))

end ParserScss
end OdooSemantic
