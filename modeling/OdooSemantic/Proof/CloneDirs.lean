import OdooSemantic.Cloner.GitUtils

/-!
# One directory for a profile and a slug

Below the base directory there is a level of profiles and a level of slugs. So no clone is inside
another one, and two repos share a directory where they share the profile and the slug
(`clone_dirs`); the branch does not count, nor what is in front of the last part of a URL.

A profile that is created by the web UI may have any name. One with a slash or with dots leaves
its level (`SharedClone`).
-/

namespace OdooSemantic

open PosixPath

/-- A repo, as far as its directory goes. -/
structure CloneSource where
  profile : String
  url : String
  branch : String
deriving DecidableEq

def CloneSource.dir (netlocOk : List Char → Bool) (base : PurePath) (r : CloneSource) :
    Option PurePath :=
  defaultCloneDir netlocOk base r.profile r.url

/-- The profile and the slug can be names of directories. -/
structure CloneSource.Plain (netlocOk : List Char → Bool) (r : CloneSource) (slug : String) :
    Prop where
  profile : IsComponent r.profile
  slug_eq : repoSlug netlocOk r.url = some slug
  noDots : slug ≠ "." ∧ slug ≠ ".."

section Dirs

variable {netlocOk : List Char → Bool} {base : PurePath} {r : CloneSource} {slug : String}

theorem CloneSource.Plain.component (h : r.Plain netlocOk slug) : IsComponent slug :=
  have hslug := notMem_slug h.slug_eq
  ⟨hslug.1, h.noDots.1, h.noDots.2, hslug.2⟩

theorem CloneSource.Plain.dir_eq (h : r.Plain netlocOk slug) :
    r.dir netlocOk base = some ⟨base.root, base.comps ++ [r.profile, slug]⟩ := by
  rw [CloneSource.dir, defaultCloneDir, h.slug_eq, Option.map_some,
    PurePath.join_of_isComponent h.profile, PurePath.join_of_isComponent h.component]
  simp

theorem CloneSource.Plain.resolve_eq (h : r.Plain netlocOk slug) :
    resolve (base.comps ++ [r.profile, slug]) = resolve base.comps ++ [r.profile, slug] := by
  refine resolve_append fun hmem => ?_
  rcases List.mem_cons.mp hmem with heq | hmem
  · exact h.profile.2.2.1 heq.symm
  · exact h.component.2.2.1 (List.mem_singleton.mp hmem).symm

end Dirs

/-- **Every clone is two levels below the base, and none is above another one.** -/
theorem clone_dirs {netlocOk : List Char → Bool} {base : PurePath} {r r' : CloneSource}
    {slug slug' : String} (h : r.Plain netlocOk slug) (h' : r'.Plain netlocOk slug') :
    ∃ dir dir', r.dir netlocOk base = some dir ∧ r'.dir netlocOk base = some dir' ∧
      dir.StrictlyBelow base ∧ dir.comps = base.comps ++ [r.profile, slug] ∧
      (dir = dir' ↔ r.profile = r'.profile ∧ slug = slug') ∧ (dir.IsAbove dir' → dir = dir') := by
  refine ⟨_, _, h.dir_eq, h'.dir_eq, ⟨⟨rfl, ?_⟩, ?_⟩, rfl, ?_, ?_⟩
  · rw [h.resolve_eq]
    exact List.prefix_append _ _
  · rw [h.resolve_eq]
    simp
  · simp [PurePath.mk.injEq]
  · rintro ⟨-, habove⟩
    dsimp only at habove
    rw [h.resolve_eq, h'.resolve_eq, List.prefix_append_right_inj] at habove
    have heq : [r.profile, slug] = [r'.profile, slug'] := habove.eq_of_length rfl
    rw [heq]

/-! ## Names that the web UI takes -/

namespace SharedClone

def netlocOk : List Char → Bool := fun _ => true

def base : PurePath := .ofText "/home/osm/.local/share/odoo-semantic-mcp/clones"

def ours : CloneSource := ⟨"odoo17", "https://github.com/viindoo/web.git", "17.0"⟩
def theirs : CloneSource := ⟨"odoo17", "git@github.com:oca/web", "17.0"⟩
def inside : CloneSource := ⟨"odoo17/web", "https://github.com/viindoo/addons.git", "17.0"⟩
def outside : CloneSource := ⟨"../../../../.ssh", "https://github.com/viindoo/web.git", "17.0"⟩

/-- The CLI would have taken this profile. -/
theorem clone_dirs_ours : ∃ dir dir', ours.dir netlocOk base = some dir ∧
    theirs.dir netlocOk base = some dir' ∧ dir.StrictlyBelow base ∧
    dir.comps = base.comps ++ ["odoo17", "web"] ∧
    (dir = dir' ↔ "odoo17" = "odoo17" ∧ "web" = "web") ∧ (dir.IsAbove dir' → dir = dir') :=
  have hours : ours.Plain netlocOk "web" := ⟨by decide, by decide, by decide⟩
  have htheirs : theirs.Plain netlocOk "web" := ⟨by decide, by decide, by decide⟩
  clone_dirs hours htheirs

/-- **One directory for two repos, one inside another, and one outside of the base.** -/
theorem clones_collide :
    (¬∀ r r' : CloneSource, r ≠ r' → ∀ dir dir', r.dir netlocOk base = some dir →
      r'.dir netlocOk base = some dir' → dir ≠ dir') ∧
    (¬∀ r r' : CloneSource, r ≠ r' → ∀ dir dir', r.dir netlocOk base = some dir →
      r'.dir netlocOk base = some dir' → ¬dir.IsAbove dir') ∧
    ¬∀ r : CloneSource, ∀ dir, r.dir netlocOk base = some dir → dir.StrictlyBelow base := by
  have hours : ours.dir netlocOk base = some ⟨"/", base.comps ++ ["odoo17", "web"]⟩ := by decide
  refine ⟨fun h => ?_, fun h => ?_, fun h => ?_⟩
  · have htheirs : theirs.dir netlocOk base = some ⟨"/", base.comps ++ ["odoo17", "web"]⟩ := by
      decide
    exact h ours theirs (by decide) _ _ hours htheirs rfl
  · have hinside : inside.dir netlocOk base =
        some ⟨"/", base.comps ++ ["odoo17", "web", "addons"]⟩ := by decide
    refine h ours inside (by decide) _ _ hours hinside ⟨rfl, ?_⟩
    decide
  · have houtside : outside.dir netlocOk base =
        some ⟨"/", base.comps ++ ["..", "..", "..", "..", ".ssh", "web"]⟩ := by decide
    have hbelow := (h outside _ houtside).1.2
    exact absurd hbelow (by decide)

end SharedClone

end OdooSemantic
