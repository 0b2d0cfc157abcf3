import OdooSemantic.Indexer.Models
import OdooSemantic.Lib.Dict
import OdooSemantic.Lib.PosixPath
import OdooSemantic.Lib.PyText

/-!
# `src/indexer/registry.py` — from manifest files to the module registry

What is on disk enters as data: the manifest files of the checkout in the order the scan finds
them, each with what reading it gives. What the code decides about them is here: which version
a module is filed under, which of two modules of one name is kept, and the path and repo name
every later comparison of the indexer goes by.
-/

namespace OdooSemantic

open PosixPath

/-- The keys of the manifest dict that are read. -/
structure Manifest where
  installable : Bool := true
  version : String := ""
  depends : List String := []
deriving DecidableEq

/-- A manifest file of a checkout, with what the readers of it return. -/
structure ManifestFile where
  /-- The module directory, below the checkout. -/
  dir : List String
  /-- `parse_manifest`; `none` is `{}`. -/
  manifest : Option Manifest
  /-- `_detect_module_edition`. -/
  edition : String := "community"
  /-- `_detect_viindoo_equivalent`. -/
  viindooEquivalentQname : Option String := none
  /-- `get_module_commit_sha`. -/
  commitSha : Option String := none
deriving DecidableEq

/-! ## Version strings -/

/-- `\d+` at the front: the digits and what follows them. -/
def digitsPrefix (cs : List Char) : Option (List Char × List Char) :=
  if (cs.takeWhile PyText.isDecimal).isEmpty then none
  else some (cs.takeWhile PyText.isDecimal, cs.dropWhile PyText.isDecimal)

/-- `^(\d+\.0)\.\d+\.\d+`, the group. -/
def longVersionPrefix (s : String) : Option String :=
  match digitsPrefix s.toList with
  | some (major, '.' :: '0' :: '.' :: rest) =>
      match digitsPrefix rest with
      | some (_, '.' :: rest) => (digitsPrefix rest).map fun _ => String.ofList (major ++ ['.', '0'])
      | _ => none
  | _ => none

/-- `^\d+\.\d+\.\d+` -/
def isLongVersion (s : String) : Bool :=
  match digitsPrefix s.toList with
  | some (_, '.' :: rest) =>
      match digitsPrefix rest with
      | some (_, '.' :: rest) => (digitsPrefix rest).isSome
      | _ => false
  | _ => false

/-- `is_odoo_version_branch`: `^\d+\.\d+$`. -/
def isOdooVersionBranch (s : String) : Bool :=
  match digitsPrefix s.toList with
  | some (_, '.' :: rest) =>
      match digitsPrefix rest with
      | some (_, []) => true
      | _ => false
  | _ => false

/-- `resolve_odoo_version(manifest_version, repo_path)`; `branch` is `get_git_branch(repo_path)`. -/
def resolveOdooVersion (manifestVersion : String) (branch : Option String) : String :=
  match longVersionPrefix manifestVersion with
  | some v => v
  | none =>
      match branch with
      | some b => if isOdooVersionBranch b then b else "unknown"
      | none => "unknown"

example : resolveOdooVersion "17.0.1.0.0" (some "16.0") = "17.0" ∧
    resolveOdooVersion "1.0" (some "16.0") = "16.0" ∧ resolveOdooVersion "1.0" none = "unknown" := by
  decide

/-! ## The registry -/

/-- `{odoo_version: {module_name: ModuleInfo}}` -/
abbrev Registry := Dict String (Dict String ModuleInfo)

/-- `module_dir.name`. -/
def moduleName (repoPath : String) (dir : List String) : String :=
  (parts repoPath ++ dir).getLast?.getD ""

/-- The `ModuleInfo` a manifest file gives, and its `version_raw`; `none` where the loop
    `continue`s. -/
def moduleOf (repoPath repoVersion : String) (branch : Option String) (file : ManifestFile) :
    Option ModuleInfo :=
  match file.manifest with
  | none => none
  | some manifest =>
      let resolved := resolveOdooVersion manifest.version branch
      let odooVersion := if resolved = "unknown" then repoVersion else resolved
      if !manifest.installable || odooVersion = "unknown" then none
      else some
        { name := moduleName repoPath file.dir
          odooVersion
          repo := name repoPath
          path := under repoPath file.dir
          depends := manifest.depends
          versionRaw := manifest.version
          edition := file.edition
          viindooEquivalentQname := file.viindooEquivalentQname
          commitSha := file.commitSha }

/-- File a module: the first of a name stays, unless a later one has a long-format version. -/
def Registry.add (registry : Registry) (info : ModuleInfo) : Registry :=
  let modules := (registry.get? info.odooVersion).getD Dict.empty
  if (modules.get? info.name).isNone || isLongVersion info.versionRaw then
    registry.set info.odooVersion (modules.set info.name info)
  else registry

/-- `build_registry([(repo_path, repo_version)])`, for the one pair the pipeline passes. -/
def buildRegistry (repoPath repoVersion : String) (branch : Option String)
    (files : List ManifestFile) : Registry :=
  (files.filterMap (moduleOf repoPath repoVersion branch)).foldl Registry.add Dict.empty

namespace Registry

/-- All the modules of a registry, version by version. -/
def modules (registry : Registry) : List ModuleInfo :=
  registry.values.flatMap Dict.values

theorem mem_modules {registry : Registry} {info : ModuleInfo} :
    info ∈ registry.modules ↔
      ∃ v mods n, (v, mods) ∈ registry.items ∧ (n, info) ∈ mods.items := by
  unfold modules
  simp only [List.mem_flatMap, Dict.values, List.mem_map]
  constructor
  · rintro ⟨mods, ⟨i, hi, rfl⟩, j, hj, rfl⟩
    exact ⟨i.1, i.2, j.1, hi, hj⟩
  · rintro ⟨v, mods, n, hi, hj⟩
    exact ⟨mods, ⟨_, hi, rfl⟩, _, hj, rfl⟩

/-- Every module is filed under its own version and its own name. -/
structure WellFiled (registry : Registry) : Prop where
  version : ∀ v mods n info, (v, mods) ∈ registry.items → (n, info) ∈ mods.items →
    info.odooVersion = v
  name : ∀ v mods n info, (v, mods) ∈ registry.items → (n, info) ∈ mods.items → info.name = n

theorem WellFiled.add {registry : Registry} (h : registry.WellFiled) (info : ModuleInfo) :
    (registry.add info).WellFiled := by
  have hitems : ∀ v mods n i, (v, mods) ∈ (registry.add info).items → (n, i) ∈ mods.items →
      (i = info ∧ v = info.odooVersion ∧ n = info.name) ∨
        ∃ mods', (v, mods') ∈ registry.items ∧ (n, i) ∈ mods'.items := by
    intro v mods n i hv hn
    unfold Registry.add at hv
    dsimp only at hv
    split at hv
    · cases Dict.mem_items_set hv with
      | inl heq =>
        obtain ⟨rfl, rfl⟩ := Prod.mk.inj heq
        cases Dict.mem_items_set hn with
        | inl heq =>
          obtain ⟨rfl, rfl⟩ := Prod.mk.inj heq
          exact Or.inl ⟨rfl, rfl, rfl⟩
        | inr hold =>
          cases hg : registry.get? info.odooVersion with
          | none =>
            rw [hg] at hold
            exact absurd hold (by simp [Dict.empty])
          | some mods' =>
            rw [hg] at hold
            exact Or.inr ⟨mods', Dict.mem_items_of_get? hg, hold⟩
      | inr hold => exact Or.inr ⟨mods, hold, hn⟩
    · exact Or.inr ⟨mods, hv, hn⟩
  constructor
  · intro v mods n i hv hn
    cases hitems v mods n i hv hn with
    | inl hnew => rw [hnew.1, hnew.2.1]
    | inr hold =>
      obtain ⟨mods', hv', hn'⟩ := hold
      exact h.version v mods' n i hv' hn'
  · intro v mods n i hv hn
    cases hitems v mods n i hv hn with
    | inl hnew => rw [hnew.1, hnew.2.2]
    | inr hold =>
      obtain ⟨mods', hv', hn'⟩ := hold
      exact h.name v mods' n i hv' hn'

theorem mem_modules_add {registry : Registry} {info i : ModuleInfo}
    (h : i ∈ (registry.add info).modules) : i = info ∨ i ∈ registry.modules := by
  obtain ⟨v, mods, n, hv, hn⟩ := mem_modules.mp h
  unfold Registry.add at hv
  dsimp only at hv
  split at hv
  · cases Dict.mem_items_set hv with
    | inl heq =>
      obtain ⟨rfl, rfl⟩ := Prod.mk.inj heq
      cases Dict.mem_items_set hn with
      | inl heq => exact Or.inl (Prod.mk.inj heq).2
      | inr hold =>
        cases hg : registry.get? info.odooVersion with
        | none =>
          rw [hg] at hold
          exact absurd hold (by simp [Dict.empty])
        | some mods' =>
          rw [hg] at hold
          exact Or.inr (mem_modules.mpr ⟨_, mods', n, Dict.mem_items_of_get? hg, hold⟩)
    | inr hold => exact Or.inr (mem_modules.mpr ⟨v, mods, n, hold, hn⟩)
  · exact Or.inr (mem_modules.mpr ⟨v, mods, n, hv, hn⟩)

theorem mem_modules_foldl_add {infos : List ModuleInfo} {registry : Registry} {i : ModuleInfo}
    (h : i ∈ (infos.foldl Registry.add registry).modules) : i ∈ infos ∨ i ∈ registry.modules := by
  induction infos generalizing registry with
  | nil => exact Or.inr h
  | cons j infos ih =>
    cases ih h with
    | inl h => exact Or.inl (List.mem_cons_of_mem _ h)
    | inr h =>
      cases mem_modules_add h with
      | inl h => exact Or.inl (h ▸ List.mem_cons_self)
      | inr h => exact Or.inr h

end Registry

section BuildRegistry

variable (repoPath repoVersion : String) (branch : Option String)

theorem wellFiled_buildRegistry (files : List ManifestFile) :
    (buildRegistry repoPath repoVersion branch files).WellFiled := by
  unfold buildRegistry
  generalize files.filterMap (moduleOf repoPath repoVersion branch) = infos
  suffices h : ∀ registry : Registry, registry.WellFiled →
      (infos.foldl Registry.add registry).WellFiled from
    h Dict.empty ⟨by simp [Dict.empty], by simp [Dict.empty]⟩
  intro registry hr
  induction infos generalizing registry with
  | nil => exact hr
  | cons info infos ih => exact ih _ (hr.add info)

/-- **A registered module comes from a manifest file.** -/
theorem exists_file_of_mem_buildRegistry {files : List ManifestFile} {info : ModuleInfo}
    (h : info ∈ (buildRegistry repoPath repoVersion branch files).modules) :
    ∃ file ∈ files, moduleOf repoPath repoVersion branch file = some info := by
  cases Registry.mem_modules_foldl_add h with
  | inl hmem => exact List.mem_filterMap.mp hmem
  | inr hmem => exact absurd hmem (by simp [Registry.modules, Dict.empty, Dict.values])

theorem moduleOf_spec {file : ManifestFile} {info : ModuleInfo}
    (h : moduleOf repoPath repoVersion branch file = some info) :
    info.repo = name repoPath ∧ info.path = under repoPath file.dir ∧
      info.name = moduleName repoPath file.dir := by
  unfold moduleOf at h
  cases hm : file.manifest with
  | none => rw [hm] at h; exact absurd h (by simp)
  | some manifest =>
    rw [hm] at h
    dsimp only at h
    generalize (if resolveOdooVersion manifest.version branch = "unknown" then repoVersion
      else resolveOdooVersion manifest.version branch) = odooVersion at h
    split at h
    · exact absurd h (by simp)
    · obtain rfl := Option.some.inj h
      exact ⟨rfl, rfl, rfl⟩

end BuildRegistry

end OdooSemantic
