import Mathlib.Data.Finset.Option
import OdooSemantic.Graph.Graph

/-!
# `src/indexer/cross_repo.py` — which repos depend on what changed
-/

namespace OdooSemantic

/-- The `repo` property of a module node. -/
def Graph.moduleRepo (g : Graph) (k : ModuleKey) : Option String :=
  (g.modules.lookup k).bind (·.repo)

/-- `find_dependent_repos(driver, odoo_version, changed_module_names)`: the distinct repos of the
    modules that depend on a changed one and are not called like one. -/
def findDependentRepos (g : Graph) (version : String) (changed : List String) : Finset String :=
  (g.dependsOn.filter fun e =>
    e.1.odooVersion = version ∧ e.2.odooVersion = version ∧
      e.2.name ∈ changed ∧ e.1.name ∉ changed).biUnion fun e => (g.moduleRepo e.1).toFinset

theorem mem_findDependentRepos {g : Graph} {version : String} {changed : List String}
    {repo : String} :
    repo ∈ findDependentRepos g version changed ↔
      ∃ d c : ModuleKey, (d, c) ∈ g.dependsOn ∧ d.odooVersion = version ∧
        c.odooVersion = version ∧ c.name ∈ changed ∧ d.name ∉ changed ∧
          g.moduleRepo d = some repo := by
  unfold findDependentRepos
  simp only [Finset.mem_biUnion, Finset.mem_filter, Option.mem_toFinset, Option.mem_def, Prod.exists]
  constructor
  · rintro ⟨d, c, ⟨hdc, h1, h2, h3, h4⟩, h5⟩
    exact ⟨d, c, hdc, h1, h2, h3, h4, h5⟩
  · rintro ⟨d, c, hdc, h1, h2, h3, h4, h5⟩
    exact ⟨d, c, ⟨hdc, h1, h2, h3, h4⟩, h5⟩

end OdooSemantic
