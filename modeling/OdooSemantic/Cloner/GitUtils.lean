import OdooSemantic.Lib.PosixPath
import OdooSemantic.Lib.PyText
import OdooSemantic.Lib.UrlParse

/-!
# `src/git_utils.py` — where a repo is cloned to

`default_clone_dir`: below the base directory, a directory for the profile, and in it one for the
last part of the URL. The name of the profile is joined to the base as it is.
-/

namespace OdooSemantic

open PosixPath

/-- `is_ssh_url(url)` -/
def isSshUrl (url : String) : Bool :=
  PyText.startswith (PyText.strip url) "git@" || PyText.startswith (PyText.strip url) "ssh://"

/-- The path of the URL, or the text before the query and the fragment where there is no scheme. -/
def clonePath (netlocOk : List Char → Bool) (url : String) : Option (List Char) :=
  let cleaned := (PyText.strip url).toList
  (UrlParse.urlparse netlocOk cleaned).map fun (scheme, path) =>
    if scheme ≠ [] then path else (cleaned.takeWhile (· ≠ '?')).takeWhile (· ≠ '#')

/-- `path.rstrip("/").split("/")[-1].split(":")[-1]` -/
def cloneName (path : List Char) : List Char :=
  UrlParse.afterLast ':' (UrlParse.afterLast '/' (path.reverse.dropWhile (· = '/')).reverse)

/-- `name[:-4] if name.endswith(".git") else name` -/
def withoutGit (name : List Char) : List Char :=
  if ".git".toList.isSuffixOf name then name.take (name.length - 4) else name

def slugOf (name : List Char) : List Char :=
  if withoutGit name = [] then "repo".toList else withoutGit name

/-- The `repo_slug` of a URL; `none` is the `ValueError` of `urlparse`. -/
def repoSlug (netlocOk : List Char → Bool) (url : String) : Option String :=
  (clonePath netlocOk url).map fun path => String.ofList (slugOf (cloneName path))

/-- `default_clone_dir(profile_name, url)`, below `_clones_base_dir()`. -/
def defaultCloneDir (netlocOk : List Char → Bool) (base : PurePath) (profileName url : String) :
    Option PurePath :=
  (repoSlug netlocOk url).map fun slug => (base.join profileName).join slug

theorem withoutGit_subset (name : List Char) : withoutGit name ⊆ name := by
  unfold withoutGit
  split
  · exact List.take_subset _ _
  · exact List.Subset.refl _

theorem notMem_slug {netlocOk : List Char → Bool} {url slug : String}
    (h : repoSlug netlocOk url = some slug) : slug ≠ "" ∧ '/' ∉ slug.toList := by
  obtain ⟨path, -, rfl⟩ := Option.map_eq_some_iff.mp h
  rw [String.toList_ofList, slugOf]
  split
  · decide
  · rename_i hne
    refine ⟨fun hempty => hne (by simpa using congrArg String.toList hempty), fun hmem => ?_⟩
    have hname : '/' ∈ cloneName path := withoutGit_subset _ hmem
    exact UrlParse.notMem_afterLast '/' _ (UrlParse.mem_of_mem_afterLast hname)

end OdooSemantic
