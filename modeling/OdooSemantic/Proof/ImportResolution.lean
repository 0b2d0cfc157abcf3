import OdooSemantic.Indexer.StylesheetImports

/-!
# Which imports are found

A name of an import stands for four files: its own, with the extension of the language, and the
partials of both. Of these the SCSS resolver tries two, those with the extension if the name has no
suffix and those without if it has one; so a dotted name is tried as if the dot began an extension.
The LESS resolver tries no partials, which LESS does not have, and makes the same mistake.
-/

namespace OdooSemantic
namespace StylesheetImports

open PosixPath

/-! ## What an import may stand for -/

/-- The name itself and with the extension, and the underscore-partial forms of these. -/
def importNames (ext : String) (partials : Bool) (p : PurePath) : List String :=
  [p.name, p.name ++ ext] ++ if partials then ["_" ++ p.name, "_" ++ (p.name ++ ext)] else []

/-- `name` in place of the last component of the import, next to the importing file. -/
def placed (importPath sourceFile name : String) : PurePath :=
  (PurePath.ofText sourceFile).parent.div ((PurePath.ofText importPath).withName name)

/-- The files that an import may stand for. A path without a name has no other forms. -/
def importForms (ext : String) (partials : Bool) (importPath sourceFile : String) :
    List PurePath :=
  let p := PurePath.ofText importPath
  if p.comps = [] then [(PurePath.ofText sourceFile).parent.div p]
  else (importNames ext partials p).map (placed importPath sourceFile)

/-- One of the forms that are there comes out, and nothing if none is. -/
structure Resolves (files : FileTree) (forms : List PurePath)
    (r : Except ResolveError (Option String)) : Prop where
  found : (∃ f ∈ forms, files.isFile f = some true) →
    ∃ f ∈ forms, files.isFile f = some true ∧ r = .ok (some (files.resolve f).str)
  nothing : (∀ f ∈ forms, files.isFile f ≠ some true) → r = .ok none
  existing : ∀ path, r = .ok (some path) → ∃ p, files.isFile p = some true ∧ path = p.str

/-! ## The first file -/

section FirstFile

variable (files : FileTree)

/-- Nothing raises, up to the first file. -/
def Readable : List PurePath → Prop
  | [] => True
  | c :: cs => files.isFile c = some true ∨ files.isFile c = some false ∧ Readable cs

instance decidableReadable : (cs : List PurePath) → Decidable (Readable files cs)
  | [] => inferInstanceAs (Decidable True)
  | _ :: cs =>
      have := decidableReadable cs
      inferInstanceAs (Decidable (_ ∨ _ ∧ Readable files cs))

variable {files} {skip : Bool} {cs forms : List PurePath} {path : String}

theorem firstFile_eq_some (h : firstFile files skip cs = .ok (some path)) :
    ∃ c ∈ cs, files.isFile c = some true ∧ path = (files.resolve c).str := by
  induction cs with
  | nil => simp [firstFile] at h
  | cons c cs ih =>
    have hlater : firstFile files skip cs = .ok (some path) →
        ∃ c' ∈ c :: cs, files.isFile c' = some true ∧ path = (files.resolve c').str := fun h' =>
      (ih h').imp fun _ hc => ⟨List.mem_cons_of_mem _ hc.1, hc.2⟩
    rw [firstFile] at h
    cases hc : files.isFile c with
    | none =>
      cases skip <;> simp only [hc, reduceIte, Bool.false_eq_true] at h
      · exact absurd h (by simp)
      · exact hlater h
    | some b =>
      cases b <;> simp only [hc] at h
      · exact hlater h
      · simp only [Except.ok.injEq, Option.some.injEq] at h
        exact ⟨c, List.mem_cons_self, hc, h.symm⟩

theorem firstFile_eq_none (h : firstFile files skip cs = .ok none) :
    ∀ c ∈ cs, files.isFile c ≠ some true := by
  induction cs with
  | nil => simp
  | cons c cs ih =>
    rw [firstFile] at h
    rw [List.forall_mem_cons]
    cases hc : files.isFile c with
    | none =>
      cases skip <;> simp only [hc, reduceIte, Bool.false_eq_true] at h
      · exact absurd h (by simp)
      · exact ⟨by simp, ih h⟩
    | some b =>
      cases b <;> simp only [hc] at h
      · exact ⟨by simp, ih h⟩
      · exact absurd h (by simp)

/-- It returns unless something raises that is not passed over. -/
theorem exists_firstFile_iff :
    (∃ r, firstFile files skip cs = .ok r) ↔ skip = true ∨ Readable files cs := by
  induction cs with
  | nil => simp [firstFile, Readable]
  | cons c cs ih =>
    rw [firstFile, Readable]
    cases hc : files.isFile c with
    | none => cases skip <;> simp_all
    | some b => cases b <;> simp_all

theorem resolves_firstFile_iff (hsub : cs ⊆ forms) :
    Resolves files forms (firstFile files skip cs) ↔ (skip = true ∨ Readable files cs) ∧
      ((∃ f ∈ forms, files.isFile f = some true) → ∃ c ∈ cs, files.isFile c = some true) := by
  rw [← exists_firstFile_iff]
  constructor
  · refine fun h => ⟨?_, fun hex => ?_⟩
    · by_cases hex : ∃ f ∈ forms, files.isFile f = some true
      · obtain ⟨f, -, -, hr⟩ := h.found hex
        exact ⟨_, hr⟩
      · exact ⟨none, h.nothing fun f hf hfile => hex ⟨f, hf, hfile⟩⟩
    · obtain ⟨f, -, -, hr⟩ := h.found hex
      exact (firstFile_eq_some hr).imp fun _ hc => ⟨hc.1, hc.2.1⟩
  · rintro ⟨⟨r, hr⟩, htried⟩
    constructor
    · intro hex
      cases r with
      | none =>
        obtain ⟨c, hc, hfile⟩ := htried hex
        exact absurd hfile (firstFile_eq_none hr c hc)
      | some path =>
        obtain ⟨c, hc, hfile, rfl⟩ := firstFile_eq_some hr
        exact ⟨c, hsub hc, hfile, hr⟩
    · intro hnone
      cases r with
      | none => exact hr
      | some path =>
        obtain ⟨c, hc, hfile, -⟩ := firstFile_eq_some hr
        exact absurd hfile (hnone c (hsub hc))
    · intro path hpath
      obtain ⟨c, -, hfile, rfl⟩ := firstFile_eq_some hpath
      exact ⟨files.resolve c, files.isFile_resolve c hfile, rfl⟩

end FirstFile

/-! ## What is tried -/

/-- By the SCSS resolver. -/
def scssTried (p : PurePath) : List String :=
  if p.suffix = "" then [p.name ++ ".scss", "_" ++ (p.name ++ ".scss")] else [p.name, "_" ++ p.name]

/-- By the LESS resolver. -/
def lessTried (p : PurePath) : List String :=
  if p.suffix = "" then [p.name ++ ".less", p.name] else [p.name, p.name]

/-- The import has a name, and if one of its files is there then one that is tried. -/
structure Tried (files : FileTree) (ext : String) (partials skip : Bool)
    (tried : PurePath → List String) (importPath sourceFile : String) : Prop where
  named : (PurePath.ofText importPath).comps ≠ []
  readable : skip = true ∨
    Readable files ((tried (PurePath.ofText importPath)).map (placed importPath sourceFile))
  reached : ∀ name ∈ importNames ext partials (PurePath.ofText importPath),
    files.isFile (placed importPath sourceFile name) = some true →
    ∃ t ∈ tried (PurePath.ofText importPath),
      files.isFile (placed importPath sourceFile t) = some true

section Resolvers

variable {files : FileTree} {importPath sourceFile : String}

theorem suffix_of_comps {p : PurePath} (h : p.comps = []) : p.suffix = "" := by
  simp [PurePath.suffix, PurePath.name, h]

theorem resolveScssImport_eq (h : (PurePath.ofText importPath).comps ≠ []) :
    resolveScssImport files importPath sourceFile = firstFile files false
      ((scssTried (PurePath.ofText importPath)).map (placed importPath sourceFile)) := by
  have hself := PurePath.withName_name h
  unfold resolveScssImport withExtension scssTried
  by_cases hs : (PurePath.ofText importPath).suffix = ""
  · simp only [hs, ne_eq, not_true, h, if_true, if_false, Except.bind, PurePath.name_withName,
      PurePath.div_parent_withName, List.map_cons, List.map_nil, placed]
  · simp only [hs, ne_eq, not_false_iff, if_true, if_false, Except.bind, List.map_cons,
      List.map_nil, placed, hself]
    rw [← PurePath.div_parent_withName _ _ (PurePath.ofText importPath).name, hself]

theorem resolveLessImport_eq (h : (PurePath.ofText importPath).comps ≠ []) :
    resolveLessImport files importPath sourceFile = firstFile files true
      ((lessTried (PurePath.ofText importPath)).map (placed importPath sourceFile)) := by
  unfold resolveLessImport withExtension lessTried
  by_cases hs : (PurePath.ofText importPath).suffix = "" <;>
    simp [hs, h, Except.bind, placed, PurePath.withName_name h]

theorem not_resolves_error {forms : List PurePath} {e : ResolveError} :
    ¬ Resolves files forms (.error e) := by
  intro h
  by_cases hex : ∃ f ∈ forms, files.isFile f = some true
  · obtain ⟨f, -, -, hr⟩ := h.found hex
    exact absurd hr (by simp)
  · exact absurd (h.nothing fun f hf hfile => hex ⟨f, hf, hfile⟩) (by simp)

/-- Of a resolver that tries these names. -/
theorem resolves_iff_tried {ext : String} {partials skip : Bool} {tried : PurePath → List String}
    {r : Except ResolveError (Option String)}
    (hempty : (PurePath.ofText importPath).comps = [] → r = .error .emptyName)
    (htries : (PurePath.ofText importPath).comps ≠ [] → r = firstFile files skip
      ((tried (PurePath.ofText importPath)).map (placed importPath sourceFile)))
    (hsub : tried (PurePath.ofText importPath) ⊆
      importNames ext partials (PurePath.ofText importPath)) :
    Resolves files (importForms ext partials importPath sourceFile) r ↔
      Tried files ext partials skip tried importPath sourceFile := by
  by_cases h : (PurePath.ofText importPath).comps = []
  · rw [hempty h]
    exact ⟨fun hr => absurd hr not_resolves_error, fun ht => absurd h ht.named⟩
  · have hforms : importForms ext partials importPath sourceFile =
        (importNames ext partials (PurePath.ofText importPath)).map (placed importPath sourceFile) :=
      if_neg h
    rw [htries h, hforms, resolves_firstFile_iff (List.map_subset _ hsub)]
    simp only [List.mem_map, exists_exists_and_eq_and]
    constructor
    · rintro ⟨hread, hreach⟩
      exact ⟨h, hread, fun name hname hfile => hreach ⟨name, hname, hfile⟩⟩
    · rintro ⟨-, hread, hreach⟩
      exact ⟨hread, fun ⟨name, hname, hfile⟩ => hreach name hname hfile⟩

end Resolvers

/-- An import is resolved if it has a name and, of the files it may stand for, one that is tried is
there unless none is. For LESS that is said with partials and without. -/
theorem import_resolution_iff (files : FileTree) (importPath sourceFile : String) :
    (Resolves files (importForms ".scss" true importPath sourceFile)
        (resolveScssImport files importPath sourceFile) ↔
      Tried files ".scss" true false scssTried importPath sourceFile) ∧
    ∀ partials, (Resolves files (importForms ".less" partials importPath sourceFile)
        (resolveLessImport files importPath sourceFile) ↔
      Tried files ".less" partials true lessTried importPath sourceFile) := by
  refine ⟨resolves_iff_tried (fun h => ?_) resolveScssImport_eq ?_, fun partials =>
    resolves_iff_tried (fun h => ?_) resolveLessImport_eq ?_⟩
  · simp [resolveScssImport, withExtension, suffix_of_comps h, h, Except.bind]
  · unfold scssTried importNames
    split <;> simp
  · simp [resolveLessImport, withExtension, suffix_of_comps h, h, Except.bind]
  · unfold lessTried importNames
    split <;> simp

namespace DottedName

/-- A directory with one file, `web.variables.scss` or `web.variables.less`. -/
def oneFile (name : String) : FileTree where
  isFile p := some (p == PurePath.ofText ("/web/static/" ++ name))
  resolve := id
  isFile_resolve _ h := h

/-- The file that the name stands for is there, and is not found. -/
theorem not_found :
    ¬ Resolves (oneFile "web.variables.scss")
      (importForms ".scss" true "web.variables" "/web/static/main.scss")
      (resolveScssImport (oneFile "web.variables.scss") "web.variables" "/web/static/main.scss") ∧
    resolveScssImport (oneFile "web.variables.scss") "web.variables" "/web/static/main.scss" =
      .ok none ∧
    ¬ Resolves (oneFile "web.variables.less")
      (importForms ".less" false "web.variables" "/web/static/main.less")
      (resolveLessImport (oneFile "web.variables.less") "web.variables" "/web/static/main.less") := by
  have hscss : resolveScssImport (oneFile "web.variables.scss") "web.variables"
      "/web/static/main.scss" = .ok none := by decide
  have hless : resolveLessImport (oneFile "web.variables.less") "web.variables"
      "/web/static/main.less" = .ok none := by decide
  refine ⟨fun h => ?_, hscss, fun h => ?_⟩
  · obtain ⟨f, -, -, hr⟩ := h.found (by decide)
    exact absurd (hscss.symm.trans hr) (by simp)
  · obtain ⟨f, -, -, hr⟩ := h.found (by decide)
    exact absurd (hless.symm.trans hr) (by simp)

end DottedName
end StylesheetImports
end OdooSemantic
