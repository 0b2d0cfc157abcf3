import OdooSemantic.Lib.PosixPath

/-!
# The files that stylesheets import

`_resolve_scss_import` of `src/indexer/parser_scss.py` and `_resolve_less_import` of
`src/indexer/parser_less.py`. Whether a name has an extension is asked of the name, which is what
`pathlib` takes for a suffix and need not be `.scss` or `.less`.
-/

namespace OdooSemantic

open PosixPath

/-- What the resolvers ask of the file system. -/
structure FileTree where
  /-- `path.is_file()`, or nothing where that raises `OSError`. -/
  isFile : PurePath → Option Bool
  resolve : PurePath → PurePath
  isFile_resolve : ∀ p, isFile p = some true → isFile (resolve p) = some true

/-- What comes out of a resolver that does not return. -/
inductive ResolveError where
  /-- `ValueError` of `with_suffix`: a path without a name. -/
  | emptyName
  | osError
deriving DecidableEq

namespace StylesheetImports

variable (files : FileTree)

/-- `p.with_suffix(ext)` if `p` has no suffix. -/
def withExtension (ext : String) (p : PurePath) : Except ResolveError PurePath :=
  if p.suffix ≠ "" then .ok p
  else if p.comps = [] then .error .emptyName
  else .ok (p.withName (p.name ++ ext))

/-- `for candidate in candidates`, where a candidate that raises is passed over or not. -/
def firstFile (skip : Bool) : List PurePath → Except ResolveError (Option String)
  | [] => .ok none
  | candidate :: candidates =>
      match files.isFile candidate with
      | some true => .ok (some (files.resolve candidate).str)
      | some false => firstFile skip candidates
      | none => if skip then firstFile skip candidates else .error .osError

/-- `_resolve_scss_import(import_path, source_file)` -/
def resolveScssImport (importPath sourceFile : String) : Except ResolveError (Option String) :=
  let sourceDir := (PurePath.ofText sourceFile).parent
  let p := PurePath.ofText importPath
  (withExtension ".scss" p).bind fun baseWithExt =>
    let partialName := "_" ++ baseWithExt.name
    firstFile files false
      [sourceDir.div baseWithExt, (sourceDir.div baseWithExt.parent).div ⟨"", [partialName]⟩]

/-- `_resolve_less_import(import_path, source_file)` -/
def resolveLessImport (importPath sourceFile : String) : Except ResolveError (Option String) :=
  let sourceDir := (PurePath.ofText sourceFile).parent
  let p := PurePath.ofText importPath
  (withExtension ".less" p).bind fun baseWithExt =>
    firstFile files true [sourceDir.div baseWithExt, sourceDir.div p]

end StylesheetImports
end OdooSemantic
