import OdooSemantic.Indexer.PythonAst
import OdooSemantic.Indexer.Registry
import OdooSemantic.Indexer.Resolver
import OdooSemantic.Lib.Filing
import OdooSemantic.Lib.Regex

/-!
# Manifests as they are written

`src/indexer/registry.py` (`_regex_extract_manifest`, `parse_manifest`, `build_registry`) and
`_detect_module_edition` of `src/indexer/parser_python.py`, over whatever literals a manifest holds.
`ManifestFile` has manifests of the types that are meant; here a value is of any type, and what is
done with it may raise.

What `ast` makes of a text is a parameter: whether it has a dictionary at the top level and which, or
what is raised.
-/

namespace OdooSemantic

/-! ## Literals -/

/-- What `ast.literal_eval` returns. -/
inductive PyValue where
  | const (c : PyConst)
  | tuple (xs : List PyValue)
  | list (xs : List PyValue)
  | set (xs : List PyValue)
  | dict (items : List (PyValue × PyValue))

inductive PyException where
  | typeError
  | attributeError
  /-- From the database. -/
  | neo4jError
deriving DecidableEq

namespace PyValue

def str (s : String) : PyValue := const (.str s)

/-- `bool(value)` -/
def truth : PyValue → Bool
  | const c => c.truth
  | tuple xs => !xs.isEmpty
  | list xs => !xs.isEmpty
  | set xs => !xs.isEmpty
  | dict items => !items.isEmpty

mutual

/-- `hash(value)` does not raise. -/
def hashable : PyValue → Bool
  | const _ => true
  | tuple xs => allHashable xs
  | _ => false

def allHashable : List PyValue → Bool
  | [] => true
  | x :: xs => hashable x && allHashable xs

end

/-- `iter(value)` -/
def iter : PyValue → Except PyException (List PyValue)
  | const (.str s) => .ok (s.toList.map fun c => str (String.singleton c))
  | const (.bytes bs) => .ok (bs.map fun b => const (.int b.toNat))
  | const _ => .error .typeError
  | tuple xs => .ok xs
  | list xs => .ok xs
  | set xs => .ok xs
  | dict items => .ok (items.map Prod.fst)

def asString : PyValue → Option String
  | const (.str s) => some s
  | _ => none

end PyValue

/-- A manifest: what it has under texts, and whether it has any other keys. -/
structure ManifestDict where
  items : Dict String PyValue := Dict.empty
  otherKeys : Bool := false

namespace ManifestDict

/-- `bool(manifest)` -/
def truth (m : ManifestDict) : Bool := !m.items.items.isEmpty || m.otherKeys

/-- `manifest.get(key, default)` -/
def get (m : ManifestDict) (key : String) (default : PyValue) : PyValue :=
  (m.items.get? key).getD default

end ManifestDict

/-! ## `parse_manifest` -/

/-- What `ast.parse` and `ast.literal_eval` give for a text. -/
inductive LiteralDict where
  | noDict
  | dict (m : ManifestDict)
  /-- `SyntaxError` or `ValueError` -/
  | malformed
  | otherError

namespace ParseManifest

open Regex

def quote : Regex := oneOf "'\""

/-- `['"]key['"]\s*:\s*` -/
def key (name : String) : Regex := seqs [quote, lit name, quote, spaces, lit ":", spaces]

/-- `['"]([^'"]+)['"]` -/
def quoted : Regex := seqs [quote, .group (plus (noneOf "'\"")), quote]

/-- `_RE_NAME` -/
def reName : Regex := .seq (key "name") quoted

/-- `_RE_VERSION` -/
def reVersion : Regex := .seq (key "version") quoted

/-- `_RE_DEPENDS` -/
def reDepends : Regex :=
  seqs [key "depends", lit "[", .group (.star (noneOf "]")), lit "]"]

/-- `_RE_INSTALLABLE` -/
def reInstallable : Regex := .seq (key "installable") (.group (.alt (lit "True") (lit "False")))

/-- `r.search(text).group(1)` -/
def search (r : Regex) (text : String) : Option String :=
  (finditer r text.toList).head?.map fun m => String.ofList m.group

/-- `_regex_extract_manifest(source)` -/
def regexExtractManifest (source : String) : ManifestDict :=
  let put (k : String) (v : Option PyValue) (items : Dict String PyValue) : Dict String PyValue :=
    match v with
    | some v => items.set k v
    | none => items
  let depends := (search reDepends source).map fun block =>
    .list ((finditer quoted block.toList).map fun m => .str (String.ofList m.group))
  { items := Dict.empty
      |> put "name" ((search reName source).map .str)
      |> put "version" ((search reVersion source).map .str)
      |> put "depends" depends
      |> put "installable" ((search reInstallable source).map fun s => .const (.bool (s = "True"))) }

end ParseManifest

/-- A manifest file of a checkout. -/
structure ManifestSource where
  /-- The module directory, below the checkout. -/
  dir : List String
  /-- `read_text`; `none` is an `OSError`. -/
  text : Option String
  /-- `_detect_viindoo_equivalent`. -/
  viindooEquivalentQname : Option String := none
  /-- `get_module_commit_sha`. -/
  commitSha : Option String := none

/-- `parse_manifest(manifest_path)` -/
def parseManifest (literalDict : String → LiteralDict) (file : ManifestSource) : ManifestDict :=
  match file.text with
  | none => {}
  | some source =>
      match literalDict source with
      | .noDict => {}
      | .dict m => m
      | .malformed => ParseManifest.regexExtractManifest source
      | .otherError => {}

/-! ## `build_registry` -/

/-- `(manifest.get("license") or "").upper()`, and `"OCA" in license_v`: any other type than a text has
no `upper`, but for bytes, which have no texts in them. -/
def licenseText (license : PyValue) : Except PyException String :=
  if license.truth then
    match license with
    | .const (.str s) => .ok s.toUpper
    | .const (.bytes _) => .error .typeError
    | _ => .error .attributeError
  else .ok ""

/-- `word in text` -/
def occursIn (word text : String) : Bool := text.toList.tails.any fun cs => word.toList.isPrefixOf cs

/-- `_detect_module_edition(manifest, module_name, module_path)` -/
def detectModuleEdition (manifest : ManifestDict) (moduleName modulePath : String) :
    Except PyException String :=
  if PyText.startswith moduleName "viin_" || PyText.startswith moduleName "to_" then .ok "viindoo"
  else do
    let license ← licenseText (manifest.get "license" (.const .none))
    if license = "OEEL-1" then return "enterprise"
    if occursIn "OCA" license then return "oca"
    if license ∈ ["LGPL-3", "LGPL-3.0", "GPL-3", "GPL-3.0", "AGPL-3", "AGPL-3.0"] &&
        (occursIn "/odoo/addons/" modulePath || occursIn "/addons/" modulePath) then
      return "community"
    return "custom"

/-- A module whose `depends` is whatever the manifest has. -/
structure RawModule where
  name : String
  odooVersion : String
  repo : String
  path : String
  depends : PyValue
  versionRaw : String
  edition : String
  viindooEquivalentQname : Option String
  commitSha : Option String

/-- What `resolve_odoo_version` gives, or what the scanner says. -/
def filedUnder (repoVersion : String) (branch : Option String) (versionRaw : String) : String :=
  let resolved := resolveOdooVersion versionRaw branch
  if resolved = "unknown" then repoVersion else resolved

section Build

variable (literalDict : String → LiteralDict) (repoPath repoVersion : String)
  (branch : Option String)

/-- The body of the loop up to the `ModuleInfo`; `none` where it `continue`s. `re.match` takes a text
and nothing else. -/
def rawModuleOf (file : ManifestSource) : Except PyException (Option RawModule) := do
  let manifest := parseManifest literalDict file
  if !manifest.truth then return none
  if !(manifest.get "installable" (.const (.bool true))).truth then return none
  let some versionRaw := (manifest.get "version" (.str "")).asString | throw .typeError
  let odooVersion := filedUnder repoVersion branch versionRaw
  if odooVersion = "unknown" then return none
  let edition ← detectModuleEdition manifest (moduleName repoPath file.dir)
    (PosixPath.under repoPath file.dir)
  return some
    { name := moduleName repoPath file.dir
      odooVersion
      repo := PosixPath.name repoPath
      path := PosixPath.under repoPath file.dir
      depends := manifest.get "depends" (.list [])
      versionRaw
      edition
      viindooEquivalentQname := file.viindooEquivalentQname
      commitSha := file.commitSha }

def RawModule.isVersioned (m : RawModule) : Bool := isLongVersion m.versionRaw

/-- File a module, as `Registry.add` does. -/
def addRawModule : Filing.Cabinet RawModule → RawModule → Filing.Cabinet RawModule :=
  Filing.file RawModule.odooVersion RawModule.name RawModule.isVersioned

/-- `build_registry([(repo_path, repo_version)])` -/
def buildRawRegistry (files : List ManifestSource) :
    Except PyException (Filing.Cabinet RawModule) :=
  files.foldlM (fun registry file => do
    match ← rawModuleOf literalDict repoPath repoVersion branch file with
    | none => return registry
    | some m => return addRawModule registry m) Dict.empty

end Build

/-! ## What is done with `depends` -/

namespace RawModule

/-- `for dep in info.depends: if dep in modules` -/
def sortDeps (m : RawModule) : Except PyException (List PyValue) := do
  let deps ← m.depends.iter
  if deps.all PyValue.hashable then return deps else throw .typeError

/-- With the texts among the dependencies; nothing else is the name of a module. -/
def typed (m : RawModule) : ModuleInfo where
  name := m.name
  odooVersion := m.odooVersion
  repo := m.repo
  path := m.path
  depends := ((m.depends.iter.toOption).getD []).filterMap PyValue.asString
  versionRaw := m.versionRaw
  edition := m.edition
  viindooEquivalentQname := m.viindooEquivalentQname
  commitSha := m.commitSha

/-- `for dep in module.depends: tx.run(…, dep=dep)`, where the database takes these values as the name
of a node. -/
def writeDeps (mergeable : PyValue → Bool) (m : RawModule) : Except PyException (List PyValue) := do
  let deps ← m.depends.iter
  if deps.all mergeable then return deps else throw .neo4jError

end RawModule

/-- `topological_sort(modules)` -/
def topologicalSortRaw (modules : Dict String RawModule) : Except PyException (List String) := do
  let _ ← modules.values.mapM RawModule.sortDeps
  return topologicalSort (modules.map RawModule.typed)

end OdooSemantic
