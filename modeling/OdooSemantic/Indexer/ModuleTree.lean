import Mathlib.Data.List.Lex
import Mathlib.Data.List.Sort
import Mathlib.Data.String.Basic
import OdooSemantic.Lib.PosixPath
import OdooSemantic.Lib.PyText

/-!
# The files of a module

The four parsers walk the directory of a module, each for the files of its extension, and leave out
what lies in certain directories. Where they look for such a directory is not the same: the walks
for Python, views and templates look at the whole path of a file, the one for JavaScript at the
path below `static/src`.
-/

namespace OdooSemantic

open PosixPath

/-- A file, with its path below the module directory. -/
structure TreeFile where
  parts : List String
  size : Nat := 0
deriving DecidableEq

/-- `path.parts` -/
def PosixPath.PurePath.parts (path : PurePath) : List String :=
  (if path.root = "" then [] else [path.root]) ++ path.comps

/-- `path.name` -/
def TreeFile.name (f : TreeFile) : String := f.parts.getLast?.getD ""

namespace ModuleTree

/-- `sorted(path.rglob("*" + extension))` -/
def rglob (extension : String) (tree : List TreeFile) : List TreeFile :=
  (tree.filter fun f => PyText.endswith f.name extension).insertionSort
    fun a b => a.parts ≤ b.parts

/-- `SKIP_DIRS & set(parts)` -/
def meets (skipDirs parts : List String) : Bool := parts.any (· ∈ skipDirs)

/-- The files of an extension, less those whose whole path meets one of the directories. -/
def walk (extension : String) (skipDirs : List String) (path : PurePath) (tree : List TreeFile) :
    List TreeFile :=
  (rglob extension tree).filter fun f => !meets skipDirs (path.parts ++ f.parts)

end ModuleTree

/-! ## The four walks -/

namespace ParserPython

/-- `SKIP_DIRS` of `parser_python.parse_module` -/
def skipDirs : List String := [".git", "static", "migrations", "tests", "__pycache__"]

/-- The files that `parse_module` parses. -/
def files (path : PurePath) (tree : List TreeFile) : List TreeFile :=
  (ModuleTree.walk ".py" skipDirs path tree).filter fun f =>
    f.name ≠ "__manifest__.py"

end ParserPython

namespace ParserXml

/-- `SKIP_DIRS` of `parser_xml.parse_module` -/
def skipDirs : List String := [".git", "static", "tests", "__pycache__"]

def files : PurePath → List TreeFile → List TreeFile := ModuleTree.walk ".xml" skipDirs

end ParserXml

namespace ParserQweb

/-- `SKIP_DIRS` of `parser_qweb.parse_module` -/
def skipDirs : List String := [".git", "static", "tests", "__pycache__"]

def files : PurePath → List TreeFile → List TreeFile := ModuleTree.walk ".xml" skipDirs

end ParserQweb

namespace ParserJs

/-- `_SKIP_DIRS` of `parser_js` -/
def treeSkipDirs : List String := ["lib", "tests"]

/-- `_MAX_JS_BYTES` -/
def maxJsBytes : Nat := 200000

/-- The path below `static/src`. -/
def belowStaticSrc (f : TreeFile) : Option TreeFile :=
  match f.parts with
  | "static" :: "src" :: parts => some { f with parts }
  | _ => none

/-- The files that `parse_module` parses; wherever the module directory is, it looks below it. -/
def files (_path : PurePath) (tree : List TreeFile) : List TreeFile :=
  ((ModuleTree.rglob ".js" (tree.filterMap belowStaticSrc)).filter fun f =>
    !ModuleTree.meets treeSkipDirs f.parts && f.size ≤ maxJsBytes).map fun f =>
      { f with parts := "static" :: "src" :: f.parts }

end ParserJs

end OdooSemantic
