import OdooSemantic.Indexer.Manifests
import OdooSemantic.Lib.Fallible

/-!
# One odd manifest

A manifest is sound where its version is a text and its license is a text or nothing. Then the scan of
a checkout returns, and what it has under a name comes from the manifests of that name alone. One
manifest that is not sound ends the scan. `depends` is not looked at before the modules are sorted, so
the modules that are kept need one that can be gone through, with nothing in it that has no hash or
that the database does not take (`manifests_isolated_iff`).
-/

namespace OdooSemantic

section Sound

variable (literalDict : String → LiteralDict) (repoPath repoVersion : String)
  (branch : Option String)

/-- The name says whose module it is, or the license can be read: it is empty or a text. -/
def EditionReadable (manifest : ManifestDict) (moduleName : String) : Prop :=
  (PyText.startswith moduleName "viin_" || PyText.startswith moduleName "to_") = true ∨
    (manifest.get "license" (.const .none)).truth = false ∨
    ((manifest.get "license" (.const .none)).asString).isSome = true

/-- **A manifest that the scan can read**, if it reads it at all. -/
def SoundManifest (file : ManifestSource) : Prop :=
  let manifest := parseManifest literalDict file
  manifest.truth = true → (manifest.get "installable" (.const (.bool true))).truth = true →
    ∃ versionRaw, (manifest.get "version" (.str "")).asString = some versionRaw ∧
      (filedUnder repoVersion branch versionRaw ≠ "unknown" →
        EditionReadable manifest (moduleName repoPath file.dir))

/-- The dependencies can be gone through, and sorted and written. -/
def UsableDepends (mergeable : PyValue → Bool) (depends : PyValue) : Prop :=
  ∃ deps, depends.iter = .ok deps ∧ ∀ dep ∈ deps, dep.hashable = true ∧ mergeable dep = true

variable {literalDict repoPath repoVersion branch}

theorem licenseText_isOk (license : PyValue) :
    (∃ text, licenseText license = .ok text) ↔
      license.truth = false ∨ license.asString.isSome = true := by
  unfold licenseText
  cases htruth : license.truth with
  | false => simp
  | true =>
    rw [if_pos rfl]
    cases license with
    | const c =>
      cases c with
      | str s => simp [PyValue.asString]
      | _ => simp [PyValue.asString]
    | _ => simp [PyValue.asString]

theorem detectModuleEdition_isOk (manifest : ManifestDict) (moduleName modulePath : String) :
    (∃ edition, detectModuleEdition manifest moduleName modulePath = .ok edition) ↔
      EditionReadable manifest moduleName := by
  unfold detectModuleEdition EditionReadable
  rw [← licenseText_isOk]
  simp only [bind, Except.bind, pure, Except.pure]
  by_cases hname : (PyText.startswith moduleName "viin_" || PyText.startswith moduleName "to_") = true
  · rw [if_pos hname]
    exact ⟨fun _ => Or.inl hname, fun _ => ⟨_, rfl⟩⟩
  · rw [if_neg hname]
    cases hlicense : licenseText (manifest.get "license" (.const .none)) with
    | error e => simp [hname]
    | ok text =>
      refine ⟨fun _ => Or.inr ⟨text, rfl⟩, fun _ => ?_⟩
      dsimp only
      split_ifs <;> exact ⟨_, rfl⟩

/-- **A manifest is read or it is not sound.** -/
theorem rawModuleOf_isOk (file : ManifestSource) :
    (∃ o, rawModuleOf literalDict repoPath repoVersion branch file = .ok o) ↔
      SoundManifest literalDict repoPath repoVersion branch file := by
  unfold rawModuleOf SoundManifest
  simp only [bind, Except.bind, pure, Except.pure, Bool.not_eq_true']
  cases htruth : (parseManifest literalDict file).truth with
  | false => simp
  | true =>
    cases hinstallable :
        ((parseManifest literalDict file).get "installable" (.const (.bool true))).truth with
    | false => simp
    | true =>
      cases hversion : ((parseManifest literalDict file).get "version" (.str "")).asString with
      | none => simp [throw, throwThe, MonadExceptOf.throw]
      | some versionRaw =>
        simp only [Bool.true_eq_false, if_false, Option.some.injEq, true_implies, exists_eq_left']
        by_cases hunknown : filedUnder repoVersion branch versionRaw = "unknown"
        · simp [hunknown]
        · rw [if_neg hunknown, ← detectModuleEdition_isOk _ _ (PosixPath.under repoPath file.dir)]
          cases detectModuleEdition (parseManifest literalDict file) (moduleName repoPath file.dir)
            (PosixPath.under repoPath file.dir) with
          | error e => simp [hunknown]
          | ok edition => simp

/-- What is read of a manifest is what is read of one whose values have the types that are meant. -/
theorem moduleOf_of_rawModuleOf {file : ManifestSource} {m : RawModule}
    (h : rawModuleOf literalDict repoPath repoVersion branch file = .ok (some m)) :
    moduleOf repoPath repoVersion branch
      { dir := file.dir
        manifest := some { version := m.versionRaw, depends := m.typed.depends }
        edition := m.edition
        viindooEquivalentQname := file.viindooEquivalentQname
        commitSha := file.commitSha } = some m.typed := by
  unfold rawModuleOf at h
  simp only [bind, Except.bind, pure, Except.pure] at h
  split at h
  · exact absurd h (by simp)
  · split at h
    · exact absurd h (by simp)
    · split at h
      · split at h
        · exact absurd h (by simp)
        · rename_i hknown
          split at h
          · exact absurd h (by simp)
          · rw [← Option.some.inj (Except.ok.inj h)]
            exact if_neg (by simpa [filedUnder] using hknown)
      · exact absurd h (by simp [throw, throwThe, MonadExceptOf.throw])

theorem name_of_rawModuleOf {file : ManifestSource} {m : RawModule}
    (h : rawModuleOf literalDict repoPath repoVersion branch file = .ok (some m)) :
    m.name = moduleName repoPath file.dir :=
  (moduleOf_spec repoPath repoVersion branch (moduleOf_of_rawModuleOf h)).2.2

end Sound

/-! ## The scan -/

section Scan

variable (literalDict : String → LiteralDict) (repoPath repoVersion : String)
  (branch : Option String)

/-- The module of a manifest that can be read. -/
def readModule (file : ManifestSource) : Option RawModule :=
  ((rawModuleOf literalDict repoPath repoVersion branch file).toOption).join

/-- The modules of this name and version among the manifests. -/
def rawCandidates (files : List ManifestSource) (version name : String) : List RawModule :=
  (files.filterMap (readModule literalDict repoPath repoVersion branch)).filter
    (Filing.belongs RawModule.odooVersion RawModule.name version name)

variable {literalDict repoPath repoVersion branch} {files : List ManifestSource}

/-- **The scan returns where every manifest is sound**, with the modules filed one by one. -/
theorem buildRawRegistry_eq_ok_iff {registry registry' : Filing.Cabinet RawModule} :
    files.foldlM (fun registry file => do
        match ← rawModuleOf literalDict repoPath repoVersion branch file with
        | none => return registry
        | some m => return addRawModule registry m) registry = .ok registry' ↔
      (∀ file ∈ files, SoundManifest literalDict repoPath repoVersion branch file) ∧
        registry' = (files.filterMap (readModule literalDict repoPath repoVersion branch)).foldl
          addRawModule registry := by
  induction files generalizing registry with
  | nil => simp [pure, Except.pure, eq_comm]
  | cons file files ih =>
    rw [List.foldlM_cons, List.forall_mem_cons, ← rawModuleOf_isOk, List.filterMap_cons]
    cases hread : rawModuleOf literalDict repoPath repoVersion branch file with
    | error e => simp [bind, Except.bind]
    | ok o =>
      simp only [readModule, hread, bind, Except.bind, pure, Except.pure, Except.toOption]
      cases o with
      | none =>
        rw [show (Option.join (some (none : Option RawModule))) = none from rfl]
        refine Iff.trans ih ?_
        simp
      | some m =>
        rw [show (Option.join (some (some m))) = some m from rfl]
        refine Iff.trans ih ?_
        simp

/-- What the scan has of a name and a version. -/
theorem find?_of_buildRawRegistry {registry : Filing.Cabinet RawModule}
    (h : buildRawRegistry literalDict repoPath repoVersion branch files = .ok registry)
    (version name : String) : Filing.find? registry version name =
      Filing.kept RawModule.isVersioned
        (rawCandidates literalDict repoPath repoVersion branch files version name) := by
  rw [(buildRawRegistry_eq_ok_iff.mp h).2]
  exact Filing.find?_foldl_file _

/-- The candidates of a name come from the manifests of that name. -/
theorem rawCandidates_filter (files : List ManifestSource) (version name : String) :
    rawCandidates literalDict repoPath repoVersion branch
        (files.filter fun file => moduleName repoPath file.dir = name) version name =
      rawCandidates literalDict repoPath repoVersion branch files version name := by
  unfold rawCandidates
  induction files with
  | nil => rfl
  | cons file files ih =>
    cases hread : readModule literalDict repoPath repoVersion branch file with
    | none =>
      rw [List.filterMap_cons_none hread, ← ih, List.filter_cons]
      split
      · rw [List.filterMap_cons_none hread]
      · rfl
    | some m =>
      have hname : m.name = moduleName repoPath file.dir := by
        refine @name_of_rawModuleOf literalDict repoPath repoVersion branch file m ?_
        unfold readModule at hread
        cases hraw : rawModuleOf literalDict repoPath repoVersion branch file with
        | error e =>
          rw [hraw] at hread
          exact absurd hread (by simp [Except.toOption])
        | ok o =>
          rw [hraw] at hread
          obtain rfl : o = some m := hread
          rfl
      rw [List.filterMap_cons_some hread, List.filter_cons]
      by_cases hsame : moduleName repoPath file.dir = name
      · rw [if_pos (by simpa using hsame), List.filterMap_cons_some hread, List.filter_cons,
          List.filter_cons, ih]
      · rw [if_neg (by simpa using hsame), ih, List.filter_cons_of_neg]
        simp [Filing.belongs, hname, hsame]

/-! ## Sorting and writing -/

theorem usableDepends_iff {mergeable : PyValue → Bool} {m : RawModule} :
    UsableDepends mergeable m.depends ↔
      (∃ deps, m.sortDeps = .ok deps) ∧ ∃ deps, m.writeDeps mergeable = .ok deps := by
  unfold UsableDepends RawModule.sortDeps RawModule.writeDeps
  simp only [bind, Except.bind, pure, Except.pure]
  cases m.depends.iter with
  | error e => simp
  | ok deps =>
    simp only [Except.ok.injEq, exists_eq_left', List.all_eq_true]
    constructor
    · intro h
      rw [if_pos fun dep hdep => (h dep hdep).1, if_pos fun dep hdep => (h dep hdep).2]
      exact ⟨⟨deps, rfl⟩, ⟨deps, rfl⟩⟩
    · rintro ⟨⟨sorted, hsort⟩, ⟨written, hwrite⟩⟩
      have hhash : ∀ dep ∈ deps, dep.hashable = true := by
        by_contra hno
        rw [if_neg hno] at hsort
        exact absurd hsort (by simp [throw, throwThe, MonadExceptOf.throw])
      have hmerge : ∀ dep ∈ deps, mergeable dep = true := by
        by_contra hno
        rw [if_neg hno] at hwrite
        exact absurd hwrite (by simp [throw, throwThe, MonadExceptOf.throw])
      exact fun dep hdep => ⟨hhash dep hdep, hmerge dep hdep⟩

/-- The sorting returns where it can go through what the modules depend on. -/
theorem topologicalSortRaw_isOk {modules : Dict String RawModule} :
    (∃ order, topologicalSortRaw modules = .ok order) ↔
      ∀ m ∈ modules.values, ∃ deps, m.sortDeps = .ok deps := by
  rw [← Fallible.mapM_isOk_iff]
  unfold topologicalSortRaw
  simp only [bind, Except.bind, pure, Except.pure]
  cases modules.values.mapM RawModule.sortDeps with
  | error e => simp
  | ok sorted => simp

/-! ## Isolation -/

section Isolation

variable (literalDict : String → LiteralDict) (mergeable : PyValue → Bool)
  (repoPath repoVersion : String) (branch : Option String)

/-- **Manifests do not get in each other's way**: the scan returns, what it has under a name it has
whatever the other manifests are, and what it has can be sorted and written. -/
structure ManifestsIsolated (files : List ManifestSource) : Prop where
  returns : ∃ registry, buildRawRegistry literalDict repoPath repoVersion branch files = .ok registry
  isolated : ∀ files' registry registry' name,
    (files'.filter fun file => moduleName repoPath file.dir = name) =
      files.filter (fun file => moduleName repoPath file.dir = name) →
    buildRawRegistry literalDict repoPath repoVersion branch files = .ok registry →
    buildRawRegistry literalDict repoPath repoVersion branch files' = .ok registry' →
    ∀ version, Filing.find? registry' version name = Filing.find? registry version name
  usable : ∀ registry version modules,
    buildRawRegistry literalDict repoPath repoVersion branch files = .ok registry →
    registry.get? version = some modules →
    (∃ order, topologicalSortRaw modules = .ok order) ∧
      ∀ m ∈ modules.values, ∃ deps, m.writeDeps mergeable = .ok deps

/-- Every manifest is sound, and the dependencies of the modules that are kept are usable: of each name
and version the last that looks versioned, or the first. -/
structure SoundManifests (files : List ManifestSource) : Prop where
  sound : ∀ file ∈ files, SoundManifest literalDict repoPath repoVersion branch file
  depends : ∀ version name m, Filing.kept RawModule.isVersioned
      (rawCandidates literalDict repoPath repoVersion branch files version name) = some m →
    UsableDepends mergeable m.depends

variable {literalDict mergeable repoPath repoVersion branch} {files : List ManifestSource}

theorem mem_values_iff {K V : Type} [DecidableEq K] {d : Dict K V} {v : V} :
    v ∈ d.values ↔ ∃ k, d.get? k = some v := by
  rw [Dict.values, List.mem_map]
  constructor
  · rintro ⟨⟨k, v⟩, hmem, rfl⟩
    exact ⟨k, Dict.get?_eq_some_iff.mpr hmem⟩
  · rintro ⟨k, hk⟩
    exact ⟨(k, v), Dict.get?_eq_some_iff.mp hk, rfl⟩

theorem usable_iff {registry : Filing.Cabinet RawModule}
    (h : buildRawRegistry literalDict repoPath repoVersion branch files = .ok registry) :
    (∀ version modules, registry.get? version = some modules →
      (∃ order, topologicalSortRaw modules = .ok order) ∧
        ∀ m ∈ modules.values, ∃ deps, m.writeDeps mergeable = .ok deps) ↔
    ∀ version name m, Filing.kept RawModule.isVersioned
        (rawCandidates literalDict repoPath repoVersion branch files version name) = some m →
      UsableDepends mergeable m.depends := by
  simp only [← find?_of_buildRawRegistry h, topologicalSortRaw_isOk, usableDepends_iff, mem_values_iff]
  constructor
  · intro husable version name m hfind
    obtain ⟨modules, hmodules, hm⟩ := Option.bind_eq_some_iff.mp hfind
    obtain ⟨hsort, hwrite⟩ := husable version modules hmodules
    exact ⟨hsort m ⟨name, hm⟩, hwrite m ⟨name, hm⟩⟩
  · intro hkept version modules hmodules
    have hfind : ∀ {name m}, modules.get? name = some m → Filing.find? registry version name = some m :=
      fun hm => Option.bind_eq_some_iff.mpr ⟨modules, hmodules, hm⟩
    constructor
    · intro m hm
      obtain ⟨name, hm⟩ := hm
      exact (hkept version name m (hfind hm)).1
    · intro m hm
      obtain ⟨name, hm⟩ := hm
      exact (hkept version name m (hfind hm)).2

/-- **Manifests are isolated exactly where they are sound.** -/
theorem manifests_isolated_iff (literalDict : String → LiteralDict) (mergeable : PyValue → Bool)
    (repoPath repoVersion : String) (branch : Option String) (files : List ManifestSource) :
    ManifestsIsolated literalDict mergeable repoPath repoVersion branch files ↔
      SoundManifests literalDict mergeable repoPath repoVersion branch files := by
  constructor
  · intro h
    obtain ⟨registry, hok⟩ := h.returns
    exact ⟨(buildRawRegistry_eq_ok_iff.mp hok).1,
      (usable_iff hok).mp fun version modules => h.usable registry version modules hok⟩
  · intro h
    refine ⟨⟨_, buildRawRegistry_eq_ok_iff.mpr ⟨h.sound, rfl⟩⟩, ?_, ?_⟩
    · intro files' registry registry' name hsame hok hok' version
      rw [find?_of_buildRawRegistry hok, find?_of_buildRawRegistry hok', ← rawCandidates_filter files',
        hsame, rawCandidates_filter]
    · intro registry version modules hok
      exact (usable_iff hok).mpr h.depends version modules

end Isolation
end Scan

namespace FloatVersion

def sale : ManifestSource where
  dir := ["addons", "sale"]
  text := some "\x7b'name': 'Sales', 'version': '1.0'\x7d"

def odd : ManifestSource where
  dir := ["addons", "odd"]
  text := some "\x7b'name': 'Odd', 'version': 17.0\x7d"

/-- What the two texts are. -/
def literalDict (text : String) : LiteralDict :=
  if some text = sale.text then
    .dict { items := (Dict.empty.set "name" (.str "Sales")).set "version" (.str "1.0") }
  else if some text = odd.text then
    .dict { items := (Dict.empty.set "name" (.str "Odd")).set "version" (.const (.inexact false)) }
  else .malformed

/-- **One manifest with a number for a version ends the scan of all.** -/
theorem scan_fails : ¬∀ (literalDict : String → LiteralDict) (mergeable : PyValue → Bool)
    (repoPath repoVersion : String) (branch : Option String) (files : List ManifestSource),
    ManifestsIsolated literalDict mergeable repoPath repoVersion branch files := by
  intro h
  obtain ⟨registry, hok⟩ := (h literalDict (fun v => v.asString.isSome) "/git/repo" "17.0" none
    [sale, odd]).returns
  obtain ⟨versionRaw, hversion, -⟩ := (buildRawRegistry_eq_ok_iff.mp hok).1 odd (by simp) (by decide)
    (by decide)
  have hnone : ((parseManifest literalDict odd).get "version" (.str "")).asString = none := by decide
  exact absurd (hnone.symm.trans hversion) (by simp)

end FloatVersion
end OdooSemantic
