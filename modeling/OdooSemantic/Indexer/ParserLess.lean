import OdooSemantic.Indexer.Stylesheets

/-!
# `src/indexer/parser_less.py`

As with SCSS; a mixin goes by the first 80 characters of its head, and a rule that looks like a
mixin is not taken for a rule as well.
-/

namespace OdooSemantic
namespace ParserLess

open Regex Stylesheets

variable (isAlnum : Char → Bool)

/-- The words that are no variables, each of them a whole word. -/
def atRule : Regex :=
  .seq (alts (["import", "media", "charset", "keyframes", "font-face", "mixin", "include", "extend",
    "use", "forward", "page", "viewport"].map lit)) (.notAhead (.char (nameChar isAlnum)))

/-- `^\s*@(?!…)[\w-]+\s*:` -/
def reLessVar : Regex :=
  seqs [.lineStart, spaces, lit "@", .notAhead (atRule isAlnum), ident isAlnum, spaces, lit ":"]

/-- `\s*[.#][\w-]+(?:\s*>\s*[.#][\w-]+)*\s*\([^)]*\)` -/
def mixinHead : Regex :=
  seqs [spaces, oneOf ".#", ident isAlnum,
    .star (seqs [spaces, lit ">", spaces, oneOf ".#", ident isAlnum]), spaces, parens]

/-- `^(…)\s*\{` -/
def reMixinDef : Regex := seqs [.lineStart, .group (mixinHead isAlnum), spaces, lit "\x7b"]

/-- `^…\s*;` -/
def reMixinCall : Regex := seqs [.lineStart, mixinHead isAlnum, spaces, lit ";"]

/-- `@import\s+(?:\([^)]*\)\s*)?["']([^"']+)["']` -/
def reImport : Regex :=
  seqs [litIgnoreCase "@import", spaces1, opt (.seq parens spaces), quoted]

/-- `^([^@\s{}\n][^{}\n]*)\s*\{` -/
def reSelector : Regex :=
  seqs [.lineStart,
    .group (seqs [.char fun c => !("@\x7b\x7d".toList.contains c || PyText.isSpace c),
      .star (noneOf "\x7b\x7d\n")]), spaces, lit "\x7b"]

/-- `^[.#][\w-]+\s*\(` -/
def reMixinDefShape : Regex := seqs [.lineStart, oneOf ".#", ident isAlnum, spaces, lit "("]

/-- `_parse_less_regex(src, …, file_path)`, its sections. -/
def parseLessRegex (src : List Char) (filePath : String) : List Section :=
  let stem := PosixPath.stem filePath
  orRaw stem src (
    variableSections (reLessVar isAlnum).isMatch stem [] (PyText.linesFrom [] src) ++
    importSections reImport stem src ++
    ((reMixinDef isAlnum).finditer src).map (blockSection "mixin" (·.take 80)) ++
    textSections "include" (reMixinCall isAlnum) stem src ++
    (reMedia.finditer src).map (blockSection "media" id) ++
    ((reSelector.finditer src).filter fun m =>
      !(reMixinDefShape isAlnum).isMatch (strip m.group)).map (blockSection "selector" (·.take 80)))

end ParserLess
end OdooSemantic
