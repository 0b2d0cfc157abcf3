import OdooSemantic.Indexer.Registry
import OdooSemantic.Lib.PyText

/-!
# `src/indexer/incremental.py` — what changed since the stored commit

The four functions of the source, on the outcome of the git call each of them makes. Git
itself is on the other side of `GitOutcome`; the one thing said about it is what
`git diff --name-only` prints when it succeeds: the path of every changed file, in the default
quoting, on a line of its own (`GitDiff.outcome`). Reading these lines back is the code's
business, and it reads them as they stand: the quotes and escapes of a quoted name become part
of the path.
-/

namespace OdooSemantic

open PosixPath PyText

/-- What `subprocess.run(["git", …])` comes to. -/
inductive GitOutcome where
  | completed (returncode : Int) (stdout : String)
  /-- `SubprocessError`, a timeout among them, or `OSError`. -/
  | raised

/-- `get_repo_head(repo_path)`, on the outcome of `git rev-parse HEAD`. -/
def getRepoHead : GitOutcome → Option String
  | .completed returncode stdout =>
      if returncode ≠ 0 ∨ strip stdout = "" then none else some (strip stdout)
  | .raised => none

/-- `is_ancestor(…)`, on the outcome of `git merge-base --is-ancestor`. -/
def isAncestor : GitOutcome → Bool
  | .completed returncode _ => returncode = 0
  | .raised => false

/-- `(repo_path / current / manifest).is_file()` for one of the two manifest names. -/
def hasManifest (files : List (List String)) (dir : List String) : Bool :=
  dir ++ ["__manifest__.py"] ∈ files || dir ++ ["__openerp__.py"] ∈ files

/-- The walk up from the directory of one printed path. -/
def moduleDirOf (files : List (List String)) (line : String) : Option (List String) :=
  nearest (hasManifest files) (parts line).dropLast

/-- `compute_changed_module_paths(repo_path, old_sha, new_sha)`, on the outcome of the diff;
    a path is its list of components. -/
def computeChangedModulePaths (files : List (List String)) : GitOutcome → List (List String)
  | .completed returncode stdout =>
      if returncode ≠ 0 then []
      else ((splitlines stdout).filter fun line => strip line ≠ "").filterMap (moduleDirOf files)
  | .raised => []

/-- `filter_modules_by_changed(modules, changed_module_paths)` -/
def filterModulesByChanged (changedModulePaths : List String) (modules : Dict String ModuleInfo) :
    Dict String ModuleInfo :=
  modules.filter fun i => i.2.path ∈ changedModulePaths

/-! ## What git prints -/

/-- The octal digits git writes a byte with. -/
def octalDigit (n : Nat) : Char := ['0', '1', '2', '3', '4', '5', '6', '7'].getD (n % 8) '0'

/-- One byte outside printable ASCII, as `\ooo`. -/
def octalEscape (b : UInt8) : List Char :=
  ['\\', octalDigit (b.toNat / 64), octalDigit (b.toNat / 8), octalDigit b.toNat]

/-- The character stands for itself in git's default quoting. -/
def isPlain (c : Char) : Bool := 0x20 ≤ c.toNat && c.toNat ≤ 0x7e && c ≠ '"' && c ≠ '\\'

/-- A character inside a quoted name. -/
def quoteChar (c : Char) : List Char :=
  if isPlain c then [c]
  else match c with
    | '"' => ['\\', '"']
    | '\\' => ['\\', '\\']
    | '\x07' => ['\\', 'a']
    | '\x08' => ['\\', 'b']
    | '\t' => ['\\', 't']
    | '\n' => ['\\', 'n']
    | '\x0b' => ['\\', 'v']
    | '\x0c' => ['\\', 'f']
    | '\r' => ['\\', 'r']
    | c => (String.utf8EncodeChar c).flatMap octalEscape

/-- A path in git's default quoting: as it is when every character is plain, else in double
    quotes with escapes. -/
def gitQuote (path : List String) : String :=
  let text := (String.intercalate "/" path).toList
  if text.all isPlain then String.ofList text
  else String.ofList ('"' :: text.flatMap quoteChar ++ ['"'])

example : gitQuote ["addons", "sale", "views.xml"] = "addons/sale/views.xml" := by decide

/-- One entry of the diff. A rename, which git detects by default, prints its new path only. -/
inductive Change where
  | file (path : List String)
  | rename (old new : List String)
deriving DecidableEq

namespace Change

/-- The path `--name-only` prints for it. -/
def printed : Change → List String
  | file path => path
  | rename _ new => new

/-- The paths at which the two commits differ. -/
def touched : Change → List (List String)
  | file path => [path]
  | rename old new => [old, new]

end Change

/-- How a `git diff` ends. -/
inductive DiffRun where
  | printed
  | failed (returncode : Int) (stdout : String) (h : returncode ≠ 0)
  | raised

/-- Two commits and one run of `git diff --name-only` on them: it prints the changes, or it
    fails. -/
structure GitDiff where
  changes : List Change
  run : DiffRun

namespace GitDiff

def outcome (d : GitDiff) : GitOutcome :=
  match d.run with
  | .printed => .completed 0 (printLines (d.changes.map fun c => gitQuote c.printed))
  | .failed returncode stdout _ => .completed returncode stdout
  | .raised => .raised

/-- The lines a run prints. -/
def lines (d : GitDiff) : List String :=
  match d.run with
  | .printed => d.changes.map fun c => gitQuote c.printed
  | _ => []

end GitDiff

/-! ## Reading it back -/

theorem isLineBoundary_of_plain {c : Char} (h : isPlain c = true) : isLineBoundary c = false := by
  have hb : 0x20 ≤ c.toNat ∧ c.toNat ≤ 0x7e := by
    simp only [isPlain, Bool.and_eq_true, decide_eq_true_eq] at h
    exact ⟨h.1.1.1, h.1.1.2⟩
  simp only [isLineBoundary, List.mem_cons, List.not_mem_nil, or_false, decide_eq_false_iff_not]
  omega

theorem isLineBoundary_octalDigit (n : Nat) : isLineBoundary (octalDigit n) = false := by
  have h : ∀ k < 8, isLineBoundary (['0', '1', '2', '3', '4', '5', '6', '7'].getD k '0') = false := by
    decide
  exact h (n % 8) (Nat.mod_lt n (by decide))

theorem isLineBoundary_quoteChar {c d : Char} (h : d ∈ quoteChar c) : isLineBoundary d = false := by
  unfold quoteChar at h
  split at h
  · rename_i hc
    exact List.mem_singleton.mp h ▸ isLineBoundary_of_plain hc
  · split at h
    case h_10 =>
      obtain ⟨b, -, hd⟩ := List.mem_flatMap.mp h
      simp only [octalEscape, List.mem_cons, List.not_mem_nil, or_false] at hd
      rcases hd with rfl | rfl | rfl | rfl
      · decide
      all_goals exact isLineBoundary_octalDigit _
    all_goals
      simp only [List.mem_cons, List.not_mem_nil, or_false] at h
      rcases h with rfl | rfl <;> decide

/-- A quoted path fits on its line. -/
theorem isLineBoundary_gitQuote (path : List String) :
    ∀ c ∈ (gitQuote path).toList, isLineBoundary c = false := by
  intro c hc
  unfold gitQuote at hc
  dsimp only at hc
  split at hc
  · rename_i hall
    rw [String.toList_ofList] at hc
    exact isLineBoundary_of_plain (List.all_eq_true.mp hall c hc)
  · rw [String.toList_ofList] at hc
    simp only [List.mem_cons, List.mem_append, List.mem_flatMap, List.not_mem_nil, or_false] at hc
    rcases hc with (rfl | ⟨d, -, hd⟩) | rfl
    · decide
    · exact isLineBoundary_quoteChar hd
    · decide

/-- What a walk finds has a manifest and is not the root. -/
theorem moduleDirOf_spec {files : List (List String)} {line : String} {dir : List String}
    (h : moduleDirOf files line = some dir) : dir ≠ [] ∧ hasManifest files dir = true := by
  obtain ⟨hne, -, htest, -⟩ := nearest_eq_some_iff.mp h
  exact ⟨hne, htest⟩

/-- A line that leads to a directory has a slash in it, so it is not blank. -/
theorem strip_ne_empty_of_moduleDirOf {files : List (List String)} {line : String}
    {dir : List String} (h : moduleDirOf files line = some dir) : strip line ≠ "" := by
  obtain ⟨hne, hprefix, -, -⟩ := nearest_eq_some_iff.mp h
  have hslash : '/' ∈ line.toList := by
    by_contra hno
    have hlen := length_parts_le_one hno
    have hdir : dir.length ≤ (parts line).dropLast.length := hprefix.length_le
    have hz : dir.length = 0 := by
      rw [List.length_dropLast] at hdir
      omega
    exact hne (List.length_eq_zero_iff.mp hz)
  exact strip_ne_empty hslash (by decide)

/-- **The directories the code finds** are the walks from the printed lines. -/
theorem mem_computeChangedModulePaths {files : List (List String)} {d : GitDiff}
    {dir : List String} :
    dir ∈ computeChangedModulePaths files d.outcome ↔
      ∃ line ∈ d.lines, moduleDirOf files line = some dir := by
  cases hrun : d.run with
  | printed =>
    have hsplit : splitlines (printLines (d.changes.map fun c => gitQuote c.printed)) =
        d.changes.map fun c => gitQuote c.printed := by
      refine splitlines_printLines fun l hl c hc => ?_
      obtain ⟨change, -, rfl⟩ := List.mem_map.mp hl
      exact isLineBoundary_gitQuote _ c hc
    simp only [computeChangedModulePaths, GitDiff.outcome, GitDiff.lines, hrun, hsplit]
    rw [if_neg (by simp), List.mem_filterMap]
    constructor
    · intro h
      obtain ⟨line, hline, hdir⟩ := h
      exact ⟨line, (List.mem_filter.mp hline).1, hdir⟩
    · intro h
      obtain ⟨line, hline, hdir⟩ := h
      refine ⟨line, List.mem_filter.mpr ⟨hline, ?_⟩, hdir⟩
      simpa using strip_ne_empty_of_moduleDirOf hdir
  | failed returncode stdout h =>
    simp [computeChangedModulePaths, GitDiff.outcome, GitDiff.lines, hrun, h]
  | raised => simp [computeChangedModulePaths, GitDiff.outcome, GitDiff.lines, hrun]

end OdooSemantic
