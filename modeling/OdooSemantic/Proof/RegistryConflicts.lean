import OdooSemantic.Indexer.Registry
import OdooSemantic.Lib.Filing

/-!
# Which of two modules is kept

Of the modules of one name and version the registry has the last that looks versioned, or the first
where none does (`find?_buildRegistry`). What looks versioned is any three numbers, so that `1.0.2`
drives out `17.0.1.0.0`; and which is last is up to the file system. Both are harmless only where
there is nothing to choose (`conflict_law_iff`).
-/

namespace OdooSemantic

/-- `registry[version][name]` -/
def Registry.find? (registry : Registry) (version name : String) : Option ModuleInfo :=
  Filing.find? registry version name

/-- The module looks versioned. -/
def ModuleInfo.isVersioned (info : ModuleInfo) : Bool := isLongVersion info.versionRaw

/-- Modules are filed by version and name, and a versioned one replaces what is there. -/
theorem Registry.add_eq : Registry.add =
    Filing.file ModuleInfo.odooVersion ModuleInfo.name ModuleInfo.isVersioned := rfl

/-- The Odoo version in front looks like a version itself. -/
theorem isLongVersion_of_prefixed {version : String}
    (h : (longVersionPrefix version).isSome = true) : isLongVersion version = true := by
  unfold longVersionPrefix at h
  unfold isLongVersion
  split at h
  · rename_i major rest hmajor
    split at h
    · rename_i minor rest' hminor
      have hzero : digitsPrefix ('0' :: '.' :: rest) = some (['0'], '.' :: rest) := by
        have hdigit : PyText.isDecimal '0' = true := by decide
        have hdot : PyText.isDecimal '.' = false := by decide
        simp [digitsPrefix, hdigit, hdot]
      simp [hmajor, hzero, hminor]
    · exact absurd h (by simp)
  · exact absurd h (by simp)

/-! ## The law -/

section Law

variable (repoPath repoVersion : String) (branch : Option String)

/-- The modules of this name and version among the manifests. -/
def candidates (files : List ManifestFile) (version name : String) : List ModuleInfo :=
  (files.filterMap (moduleOf repoPath repoVersion branch)).filter
    (Filing.belongs ModuleInfo.odooVersion ModuleInfo.name version name)

/-- **The conflict law**: the same module is kept in whatever order the manifests come, and it has the
Odoo version in its own one if any of them has. -/
structure ConflictLaw (files : List ManifestFile) : Prop where
  order : ∀ files' : List ManifestFile, files'.Perm files → ∀ version name,
    (buildRegistry repoPath repoVersion branch files').find? version name =
      (buildRegistry repoPath repoVersion branch files).find? version name
  prefers : ∀ files' : List ManifestFile, files'.Perm files → ∀ version name info,
    (buildRegistry repoPath repoVersion branch files').find? version name = some info →
    (∃ c ∈ candidates repoPath repoVersion branch files version name,
      (longVersionPrefix c.versionRaw).isSome = true) →
    (longVersionPrefix info.versionRaw).isSome = true

/-- There is one module that looks versioned, or none does and there is only one. -/
def NothingToChoose (infos : List ModuleInfo) : Prop :=
  (∀ c ∈ infos, ∀ d ∈ infos, c.isVersioned = true → d.isVersioned = true → c = d) ∧
  ((∀ c ∈ infos, c.isVersioned = false) → ∀ c ∈ infos, ∀ d ∈ infos, c = d)

variable {repoPath repoVersion branch} {files : List ManifestFile} {version name : String}

/-- **What the registry has of a name and a version.** -/
theorem find?_buildRegistry : (buildRegistry repoPath repoVersion branch files).find? version name =
    Filing.kept ModuleInfo.isVersioned
      (candidates repoPath repoVersion branch files version name) := by
  rw [Registry.find?, buildRegistry, Registry.add_eq]
  exact Filing.find?_foldl_file _

theorem candidates_perm {files' : List ManifestFile} (hperm : files'.Perm files) :
    (candidates repoPath repoVersion branch files' version name).Perm
      (candidates repoPath repoVersion branch files version name) :=
  (hperm.filterMap _).filter _

theorem candidates_append (files files' : List ManifestFile) :
    candidates repoPath repoVersion branch (files ++ files') version name =
      candidates repoPath repoVersion branch files version name ++
        candidates repoPath repoVersion branch files' version name := by
  rw [candidates, List.filterMap_append, List.filter_append]
  rfl

/-- Any candidate can be the first or the last one. -/
theorem exists_order {c : ModuleInfo}
    (hc : c ∈ candidates repoPath repoVersion branch files version name) :
    (∃ files' rest, files'.Perm files ∧
      candidates repoPath repoVersion branch files' version name = c :: rest) ∧
    ∃ files' rest, files'.Perm files ∧
      candidates repoPath repoVersion branch files' version name = rest ++ [c] := by
  obtain ⟨hmem, hnamed⟩ := List.mem_filter.mp hc
  obtain ⟨file, hfile, hmodule⟩ := List.mem_filterMap.mp hmem
  obtain ⟨front, back, rfl⟩ := List.append_of_mem hfile
  have hone : candidates repoPath repoVersion branch [file] version name = [c] := by
    rw [candidates, List.filterMap_cons_some hmodule, List.filterMap_nil,
      List.filter_cons_of_pos hnamed, List.filter_nil]
  have hfront : (file :: (front ++ back)).Perm (front ++ file :: back) := List.perm_middle.symm
  constructor
  · refine ⟨file :: (front ++ back), candidates repoPath repoVersion branch (front ++ back) version name,
      hfront, ?_⟩
    exact (candidates_append [file] (front ++ back)).trans (by rw [hone]; rfl)
  · refine ⟨(front ++ back) ++ [file], candidates repoPath repoVersion branch (front ++ back) version name,
      (List.perm_append_singleton file (front ++ back)).trans hfront, ?_⟩
    rw [candidates_append, hone]

theorem kept_perm {infos infos' : List ModuleInfo} (hperm : infos'.Perm infos)
    (h : NothingToChoose infos) : Filing.kept ModuleInfo.isVersioned infos' = Filing.kept ModuleInfo.isVersioned infos := by
  unfold Filing.kept
  have hlong := hperm.filter ModuleInfo.isVersioned
  have hmem : ∀ {c}, c ∈ infos.filter ModuleInfo.isVersioned →
      c ∈ infos ∧ c.isVersioned = true := List.mem_filter.mp
  cases hlast : (infos.filter ModuleInfo.isVersioned).getLast? with
  | some c =>
    cases hlast' : (infos'.filter ModuleInfo.isVersioned).getLast? with
    | some d =>
      obtain ⟨hc, hclong⟩ := hmem (List.mem_of_getLast? hlast)
      obtain ⟨hd, hdlong⟩ := hmem (hlong.mem_iff.mp (List.mem_of_getLast? hlast'))
      rw [h.1 c hc d hd hclong hdlong]
      rfl
    | none =>
      rw [List.getLast?_eq_none_iff.mp hlast'] at hlong
      rw [hlong.nil_eq.symm] at hlast
      exact absurd hlast (by simp)
  | none =>
    have hnil := List.getLast?_eq_none_iff.mp hlast
    have hnone : ∀ c ∈ infos, c.isVersioned = false := by
      intro c hc
      exact Bool.eq_false_iff.mpr (List.filter_eq_nil_iff.mp hnil c hc)
    rw [hnil] at hlong
    rw [hlong.eq_nil, List.getLast?_nil, Option.none_or, Option.none_or]
    cases hfirst : infos.head? with
    | none =>
      rw [List.head?_eq_none_iff.mp hfirst] at hperm
      rw [hperm.eq_nil]
      rfl
    | some c =>
      cases hfirst' : infos'.head? with
      | none =>
        rw [List.head?_eq_none_iff.mp hfirst'] at hperm
        rw [hperm.nil_eq.symm] at hfirst
        exact absurd hfirst (by simp)
      | some d =>
        have hd := hperm.mem_iff.mp (List.mem_of_mem_head? hfirst')
        rw [h.2 hnone c (List.mem_of_mem_head? hfirst) d hd]

/-- **The law holds exactly where there is nothing to choose.** -/
theorem conflict_law_iff (repoPath repoVersion : String) (branch : Option String)
    (files : List ManifestFile) : ConflictLaw repoPath repoVersion branch files ↔
      ∀ version name, NothingToChoose (candidates repoPath repoVersion branch files version name) := by
  constructor
  · intro h version name
    have hsame : ∀ files', files'.Perm files →
        Filing.kept ModuleInfo.isVersioned (candidates repoPath repoVersion branch files' version name) =
          Filing.kept ModuleInfo.isVersioned (candidates repoPath repoVersion branch files version name) := by
      intro files' hperm
      rw [← find?_buildRegistry, ← find?_buildRegistry]
      exact h.order files' hperm version name
    constructor
    · intro c hc d hd hclong hdlong
      have hlast : ∀ c ∈ candidates repoPath repoVersion branch files version name,
          c.isVersioned = true →
          Filing.kept ModuleInfo.isVersioned (candidates repoPath repoVersion branch files version name) = some c := by
        intro c hc hlong
        obtain ⟨-, files', rest, hperm, heq⟩ := exists_order hc
        rw [← hsame files' hperm, heq, Filing.kept_concat, if_pos (Or.inr hlong)]
      exact Option.some.inj ((hlast c hc hclong).symm.trans (hlast d hd hdlong))
    · intro hnone c hc d hd
      have hfirst : ∀ c ∈ candidates repoPath repoVersion branch files version name,
          Filing.kept ModuleInfo.isVersioned (candidates repoPath repoVersion branch files version name) = some c := by
        intro c hc
        obtain ⟨⟨files', rest, hperm, heq⟩, -⟩ := exists_order hc
        have hnil : (candidates repoPath repoVersion branch files' version name).filter
            ModuleInfo.isVersioned = [] := by
          rw [List.filter_eq_nil_iff]
          intro d hd
          rw [hnone d ((candidates_perm hperm).mem_iff.mp hd)]
          simp
        rw [← hsame files' hperm, Filing.kept, hnil, heq]
        rfl
      exact Option.some.inj ((hfirst c hc).symm.trans (hfirst d hd))
  · intro h
    have hsame : ∀ files', files'.Perm files → ∀ version name,
        Filing.kept ModuleInfo.isVersioned (candidates repoPath repoVersion branch files' version name) =
          Filing.kept ModuleInfo.isVersioned (candidates repoPath repoVersion branch files version name) :=
      fun files' hperm version name => kept_perm (candidates_perm hperm) (h version name)
    constructor
    · intro files' hperm version name
      rw [find?_buildRegistry, find?_buildRegistry]
      exact hsame files' hperm version name
    · rintro files' hperm version name info hfind ⟨c, hc, hprefixed⟩
      rw [find?_buildRegistry, hsame files' hperm] at hfind
      have hclong : c.isVersioned = true := isLongVersion_of_prefixed hprefixed
      -- the one that is kept is the one that looks versioned, and that is `c`
      have hkept : Filing.kept ModuleInfo.isVersioned (candidates repoPath repoVersion branch files version name) = some c := by
        obtain ⟨-, files', rest, hperm, heq⟩ := exists_order hc
        rw [← hsame files' hperm, heq, Filing.kept_concat, if_pos (Or.inr hclong)]
      rw [← Option.some.inj (hkept.symm.trans hfind)]
      exact hprefixed

end Law

namespace TwoSales

def file (dir : List String) (version : String) : ManifestFile where
  dir := dir
  manifest := some { version := version }

/-- A copy of the module with a version of its own behind the real one. -/
def files : List ManifestFile := [file ["addons", "sale"] "17.0.1.0.0", file ["vendor", "sale"] "1.0.2"]

/-- **The module with the Odoo version is dropped** for one that has three numbers. -/
theorem prefixed_dropped : ¬∀ (repoPath repoVersion : String) (branch : Option String)
    (files : List ManifestFile), ConflictLaw repoPath repoVersion branch files := by
  intro h
  have hlaw := (h "/git/repo" "17.0" none files).prefers files (List.Perm.refl _) "17.0" "sale"
  have hkept : Filing.kept ModuleInfo.isVersioned (candidates "/git/repo" "17.0" none files "17.0" "sale") =
      moduleOf "/git/repo" "17.0" none (file ["vendor", "sale"] "1.0.2") := by decide
  rw [find?_buildRegistry, hkept] at hlaw
  exact absurd (hlaw _ rfl (by decide)) (by decide)

end TwoSales
end OdooSemantic
