import OdooSemantic.Indexer.ModuleTree

/-!
# Where the checkout is

A module is the same wherever its checkout has been placed. For JavaScript the walk sees it so. The
other walks look at the whole path: below a directory that is named like one they skip, they skip
everything (`relocation_iff`).
-/

namespace OdooSemantic

open PosixPath ModuleTree

/-- The same files are parsed, wherever the module directory is. -/
def Relocates (tree : List TreeFile) (path path' : PurePath) : Prop :=
  (∀ f, f ∈ ParserPython.files path tree ↔ f ∈ ParserPython.files path' tree) ∧
  (∀ f, f ∈ ParserXml.files path tree ↔ f ∈ ParserXml.files path' tree) ∧
  (∀ f, f ∈ ParserQweb.files path tree ↔ f ∈ ParserQweb.files path' tree) ∧
  (∀ f, f ∈ ParserJs.files path tree ↔ f ∈ ParserJs.files path' tree)

/-- Either both directories lie below one that is skipped or neither, or there is nothing to be
    parsed anyhow. -/
def SkippedAlike (skipDirs : List String) (path path' : PurePath) (files : List TreeFile) : Prop :=
  (meets skipDirs path.parts = meets skipDirs path'.parts) ∨
    ∀ f ∈ files, meets skipDirs f.parts = true

theorem meets_append (skipDirs xs ys : List String) :
    meets skipDirs (xs ++ ys) = (meets skipDirs xs || meets skipDirs ys) := List.any_append

theorem mem_walk {extension : String} {skipDirs : List String} {path : PurePath}
    {tree : List TreeFile} {f : TreeFile} :
    f ∈ walk extension skipDirs path tree ↔
      f ∈ rglob extension tree ∧ meets skipDirs path.parts = false ∧
        meets skipDirs f.parts = false := by
  unfold walk
  rw [List.mem_filter, meets_append]
  simp

/-- A walk, and what else it asks of a file. -/
theorem same_walk_iff {extension : String} {skipDirs : List String} {path path' : PurePath}
    {tree : List TreeFile} (keep : TreeFile → Bool) :
    (∀ f, f ∈ (walk extension skipDirs path tree).filter keep ↔
        f ∈ (walk extension skipDirs path' tree).filter keep) ↔
      SkippedAlike skipDirs path path' ((rglob extension tree).filter keep) := by
  unfold SkippedAlike
  simp only [List.mem_filter, mem_walk]
  constructor
  · intro h
    by_cases hnone : ∀ f, f ∈ rglob extension tree ∧ keep f = true → meets skipDirs f.parts = true
    · exact Or.inr hnone
    · rw [not_forall] at hnone
      obtain ⟨f, hf⟩ := hnone
      rw [Classical.not_imp] at hf
      obtain ⟨⟨hmem, hkeep⟩, hclear⟩ := hf
      have hclear := Bool.eq_false_iff.mpr hclear
      have hsame := h f
      apply Or.inl
      cases hp : meets skipDirs path.parts <;> cases hp' : meets skipDirs path'.parts
      · rfl
      · exact absurd (hsame.mp ⟨⟨hmem, hp, hclear⟩, hkeep⟩).1.2.1 (by simp [hp'])
      · exact absurd (hsame.mpr ⟨⟨hmem, hp', hclear⟩, hkeep⟩).1.2.1 (by simp [hp])
      · rfl
  · intro h f
    cases h with
    | inl halike => rw [halike]
    | inr hskipped =>
      constructor
      · rintro ⟨⟨hmem, -, hclear⟩, hkeep⟩
        exact absurd (hskipped f ⟨hmem, hkeep⟩) (by simp [hclear])
      · rintro ⟨⟨hmem, -, hclear⟩, hkeep⟩
        exact absurd (hskipped f ⟨hmem, hkeep⟩) (by simp [hclear])

/-- **A module may be moved exactly where the directories above it are skipped alike.** -/
theorem relocation_iff (tree : List TreeFile) (path path' : PurePath) :
    Relocates tree path path' ↔
      SkippedAlike ParserPython.skipDirs path path'
          ((rglob ".py" tree).filter fun f => f.name ≠ "__manifest__.py") ∧
        SkippedAlike ParserXml.skipDirs path path' (rglob ".xml" tree) := by
  have hxml := @same_walk_iff ".xml" ParserXml.skipDirs path path' tree fun _ => true
  simp only [List.filter_true] at hxml
  constructor
  · rintro ⟨hpython, hviews, -, -⟩
    exact ⟨(same_walk_iff _).mp hpython, hxml.mp hviews⟩
  · rintro ⟨hpython, hviews⟩
    exact ⟨(same_walk_iff _).mpr hpython, hxml.mpr hviews, hxml.mpr hviews, fun f => Iff.rfl⟩

namespace BelowTests

/-- A module with one Python file. -/
def tree : List TreeFile := [{ parts := ["models", "sale.py"] }]

def home : PurePath := ⟨"/", ["home", "git", "addons", "sale"]⟩

def tests : PurePath := ⟨"/", ["home", "tests", "addons", "sale"]⟩

/-- **Below a directory `tests`, the module has no Python file.** -/
theorem relocation_fails : ¬Relocates tree home tests := by
  intro h
  have hsame := h.1 { parts := ["models", "sale.py"] }
  exact absurd (hsame.mp (by decide)) (by decide)

end BelowTests

end OdooSemantic
