import OdooSemantic.Indexer.ModuleNodes
import OdooSemantic.Indexer.ScopedDeletion
import OdooSemantic.Indexer.WriterCalls

/-!
# What a removed module leaves behind

There are two ways for a module to go, and they have two ideas of what goes with it.
`delete_modules_scoped` takes the nodes of seven labels along; `gc_stale_modules` takes none,
and means to: an entity without its `DEFINED_IN` edge is taken to be inert. So the promise that
no entity outlives its module is kept by the first and not by the second
(`orphan_after_gc`).
-/

namespace OdooSemantic

open KeyedStore

/-- **Scoped deletion is complete and framed, and garbage collection removes modules only.** -/
theorem deletion_exact (g : Graph) (repo version : String) :
    (∀ e, e.IsChild → (deleteModulesScoped repo version g).1.Has e →
      g.inRepo repo version e.owner = false) ∧
    (∀ k, (deleteModulesScoped repo version g).1.inRepo repo version k = false) ∧
    (∀ e, g.inRepo repo version e.owner = false →
      SameNode g (deleteModulesScoped repo version g).1 e) ∧
    (∀ k, g.inRepo repo version k = false →
      (deleteModulesScoped repo version g).1.modules.lookup k = g.modules.lookup k) ∧
    ∀ livePaths,
      (∀ k, (gcStaleModules repo version livePaths g).modules.lookup k =
        if g.isStale repo version livePaths k then none else g.modules.lookup k) ∧
      ∀ e, SameNode g (gcStaleModules repo version livePaths g) e := by
  refine ⟨?_, ?_, ?_, ?_, ?_⟩
  · intro e he hhas
    exact owner_of_has_deleteModulesScoped g repo version he hhas
  · intro k
    rw [Bool.eq_false_iff]
    intro hk
    obtain ⟨hver, p, hp, hrepo⟩ := inRepo_iff.mp hk
    rw [lookup_modules_deleteModulesScoped] at hp
    split at hp
    · exact absurd hp (by simp)
    · rename_i hnot
      exact hnot (inRepo_iff.mpr ⟨hver, p, hp, hrepo⟩)
  · intro e he
    exact sameNode_deleteModulesScoped g repo version he
  · intro k hk
    rw [lookup_modules_deleteModulesScoped, hk]
    rfl
  · intro livePaths
    exact ⟨lookup_modules_gcStaleModules repo version livePaths g,
      fun e => sameNode_detachModules g _ e⟩

/-! ## An entity that outlives its module -/

namespace StaleModule

/-- A module `stock` with a model and a stylesheet. -/
def stock : ModuleInfo :=
  { name := "stock", odooVersion := "17.0", repo := "odoo_17.0", path := "/r/stock", depends := [] }

def calls : List WriterCall :=
  [.writeResults ["base"] [⟨stock, [{ name := "stock.move", module := "stock", odooVersion := "17.0" }]⟩],
    .writeStylesheets ["base"]
      [{ filePath := "stock.css", module := "stock", odooVersion := "17.0", language := "css" }]]

/-- The repo as it was indexed. -/
def indexed : Graph := WriterCall.execAll calls {}

/-- The same after a garbage collection that finds the module renamed. -/
def collected : Graph := gcStaleModules "odoo_17.0" "17.0" ["/r/inventory"] indexed

def move : EntityNode := .model ⟨"stock.move", "stock", "17.0"⟩

theorem orphan_after_gc :
    indexed.isStale "odoo_17.0" "17.0" ["/r/inventory"] move.owner = true ∧
      collected.modules.lookup move.owner = none ∧ collected.Has move := by
  refine ⟨by decide, by decide, ?_⟩
  show (⟨"stock.move", "stock", "17.0"⟩ : ModelKey) ∈ collected.models
  decide

end StaleModule

end OdooSemantic
