import OdooSemantic.Indexer.Pipeline

/-!
# What an incremental run covers

A run that moves the stored head from one commit to another has executed all its writes, and
what it writes was decided by the diff: the modules whose directory is the nearest one with a
manifest above a printed path. So every module that differs between the two commits is
written exactly if the diff has a line for each of them (`covered_iff`).

That is not so when the diff fails or times out, where the code goes on with no line at all
and still moves the head; when a file is renamed away, since only the new name is printed; for
a name that git prints in quotes, since the quotes are read as part of the first component; and for a module
around another one, since the walk stops at the inner one.
-/

namespace OdooSemantic

open PosixPath

variable {Vec : Type}

/-- The subtree at `path` differs between the two commits. -/
def GitDiff.ChangesUnder (d : GitDiff) (localPath path : String) : Prop :=
  ∃ c ∈ d.changes, ∃ p ∈ c.touched, ∃ dir, dir <+: p ∧ under localPath dir = path

/-- A printed line leads to the module at `path`. -/
def GitDiff.LeadsTo (d : GitDiff) (files : List (List String)) (localPath path : String) : Prop :=
  ∃ line ∈ d.lines, ∃ dir, moduleDirOf files line = some dir ∧ under localPath dir = path

/-- The module was parsed, and its results are among the transactions. -/
structure WrittenIn (co : Checkout) (ps : List String) (info : ModuleInfo)
    (steps : List (IndexStep Vec)) : Prop where
  result : .write (.writeResult ps (co.parseResult info)) ∈ steps
  view : .write (.writeView ps (co.viewResult info)) ∈ steps
  js : .write (.writeJs ps (co.jsResult info)) ∈ steps

section Covered

variable {repo : Repo} {co : Checkout} {opts : RunOptions Vec} {w : World Vec}
  {plan : IndexPlan Vec}

theorem mem_changedAbsPaths {last path : String} :
    path ∈ co.changedAbsPaths repo last ↔ (co.diff last).LeadsTo co.files repo.localPath path := by
  unfold Checkout.changedAbsPaths GitDiff.LeadsTo
  simp only [List.mem_map, mem_computeChangedModulePaths]
  constructor
  · intro h
    obtain ⟨dir, ⟨line, hline, hdir⟩, hpath⟩ := h
    exact ⟨line, hline, dir, hdir, hpath⟩
  · intro h
    obtain ⟨line, hline, dir, hdir, hpath⟩ := h
    exact ⟨dir, ⟨line, hline, hdir⟩, hpath⟩

/-- Once all writes of a plan are executed, the modules that were written are those the run
    decided for. -/
theorem writtenIn_take_iff {stored : Option String}
    (hplan : planIndexRepo repo co opts stored = .ok plan)
    (hchanged : isUnchanged co opts stored = false) {n : Nat}
    (hn : (plan.writes ++ plan.gc).length ≤ n) (info : ModuleInfo) :
    WrittenIn co opts.ancestorProfiles info (plan.steps.take n) ↔
      info ∈ writtenModules repo co opts stored := by
  have hmem : ∀ s : WriteStep Vec, .write s ∈ plan.steps.take n ↔ s ∈ plan.writes ∨ s ∈ plan.gc := by
    intro s
    rw [IndexPlan.take_steps, List.take_of_length_le hn, List.mem_append]
    constructor
    · intro h
      cases h with
      | inl hs => simpa using hs
      | inr hs =>
        obtain ⟨t, -, ht⟩ := List.mem_map.mp hs
        exact absurd ht (by simp)
    · intro hs
      exact Or.inl (by simpa using hs)
  rcases planIndexRepo_cases hplan with ⟨hun, -⟩ | ⟨-, -, hnone, rfl⟩ | ⟨-, rfl⟩
  · rw [hchanged] at hun
    exact absurd hun (by simp)
  · unfold writtenModules
    rw [hnone]
    refine iff_of_false (fun h => ?_) (by simp)
    exact absurd ((hmem _).mp h.result) (by simp)
  · constructor
    · intro h
      cases (hmem _).mp h.result with
      | inl hs =>
        cases planned_of_mem_planWrites _ _ _ _ hs with
        | result hinfo => exact hinfo
      | inr hs =>
        have hgc : .writeResult opts.ancestorProfiles (co.parseResult info) ∈
            gcSteps repo co opts := hs
        unfold gcSteps at hgc
        split at hgc
        · exact absurd (List.mem_singleton.mp hgc) (by simp)
        · exact absurd hgc (by simp)
    · intro h
      exact ⟨(hmem _).mpr (Or.inl (writeResult_mem_planWrites _ _ _ _ h)),
        (hmem _).mpr (Or.inl (writeView_mem_planWrites _ _ _ _ h)),
        (hmem _).mpr (Or.inl (writeJs_mem_planWrites _ _ _ _ h))⟩

/-- **What an incremental run covers.** In a run that moves the stored head, every module that
    differs between the two commits is written exactly if the run does not go by a diff, or the
    diff has a line that leads to each of them. -/
theorem covered_iff {h0 h1 : String} {n : Nat}
    (hplan : planIndexRepo repo co opts (w.db.getRepoHeadSha repo.id) = .ok plan)
    (hstored : w.db.getRepoHeadSha repo.id = some h0) (hne : h0 ≠ h1)
    (hadvanced : (indexRepoUpTo n repo co opts w).1.db.getRepoHeadSha repo.id = some h1) :
    (∀ info ∈ (co.registry repo).modules,
      (co.diff h0).ChangesUnder repo.localPath info.path →
        WrittenIn co opts.ancestorProfiles info (plan.steps.take n)) ↔
    (diffBase co opts (some h0) = some h0 → ∀ info ∈ (co.registry repo).modules,
      (co.diff h0).ChangesUnder repo.localPath info.path →
        (co.diff h0).LeadsTo co.files repo.localPath info.path) := by
  obtain ⟨hpast, hchanged, -, -⟩ := advanced_spec hplan hstored hne hadvanced
  rw [hstored] at hplan
  have hwritten := writtenIn_take_iff hplan hchanged hpast.le
  refine ⟨fun h hbase info hinfo hdiff => ?_, fun h info hinfo hdiff => ?_⟩
  · have hmem := (hwritten info).mp (h info hinfo hdiff)
    exact mem_changedAbsPaths.mp (((mem_modulesByVersion _ _ _ _).mp hmem).2 h0 hbase)
  · refine (hwritten info).mpr ((mem_modulesByVersion _ _ _ _).mpr ⟨hinfo, ?_⟩)
    intro last hlast
    obtain rfl : h0 = last := Option.some.inj (stored_of_diffBase hlast)
    exact mem_changedAbsPaths.mpr (h hlast info hinfo hdiff)

end Covered

/-! ### A diff that times out

The module `sale` differs between `c0` and `c1`, and `git diff` is killed by its timeout. -/

def timeoutRepo : Repo := ⟨1, "/srv/addons", "17.0"⟩

def timeoutSale : ManifestFile where
  dir := ["sale"]
  manifest := some { version := "17.0.1.0.0" }

def timeoutCheckout (run : DiffRun) : Checkout where
  head := .completed 0 "c1\n"
  ancestry := fun _ => .completed 0 ""
  diff := fun _ => ⟨[.file ["sale", "models", "sale.py"]], run⟩
  files := [["sale", "__manifest__.py"], ["sale", "models", "sale.py"]]
  manifests := [timeoutSale]
  parse := Parsed.empty

def timeoutRow : RepoRow where
  profileId := 1
  url := "git@shop/addons"
  branch := "17.0"
  localPath := "/srv/addons"
  headSha := some "c0"

def timeoutWorld : World Unit where
  db := { repos := AList.insert 1 timeoutRow ∅ }

def timeoutInfo : ModuleInfo where
  name := "sale"
  odooVersion := "17.0"
  repo := "addons"
  path := "/srv/addons/sale"
  depends := []
  versionRaw := "17.0.1.0.0"

def timeoutPlan (run : DiffRun) : IndexPlan Unit :=
  fullPlan timeoutRepo (timeoutCheckout run) {} (some "c0")
    (modulesByVersion timeoutRepo (timeoutCheckout run) ({} : RunOptions Unit) (some "c0"))

theorem changesUnder_timeout (run : DiffRun) :
    ((timeoutCheckout run).diff "c0").ChangesUnder "/srv/addons" "/srv/addons/sale" :=
  ⟨_, List.mem_singleton.mpr rfl, _, List.mem_singleton.mpr rfl, ["sale"], by decide, by decide⟩

/-- The head moves to `c1` and nothing is written. -/
theorem timeout_not_covered :
    planIndexRepo timeoutRepo (timeoutCheckout .raised) ({} : RunOptions Unit)
        (timeoutWorld.db.getRepoHeadSha 1) = .ok { head := [.updateHeadSha 1 "c1"] } ∧
    timeoutWorld.db.getRepoHeadSha 1 = some "c0" ∧
    (indexRepo timeoutRepo (timeoutCheckout .raised) {} timeoutWorld).1.db.getRepoHeadSha 1 =
      some "c1" ∧
    timeoutInfo ∈ ((timeoutCheckout .raised).registry timeoutRepo).modules ∧
    ((timeoutCheckout .raised).diff "c0").ChangesUnder "/srv/addons" timeoutInfo.path ∧
    ¬ WrittenIn (timeoutCheckout .raised) [] timeoutInfo
      ({ head := [.updateHeadSha 1 "c1"] } : IndexPlan Unit).steps := by
  refine ⟨rfl, by decide, by decide, by decide, changesUnder_timeout .raised, ?_⟩
  intro h
  exact absurd h.result (by simp [IndexPlan.steps])

/-- The equivalence where the same diff is printed. -/
theorem covered_iff_timeout :
    (∀ info ∈ ((timeoutCheckout .printed).registry timeoutRepo).modules,
      ((timeoutCheckout .printed).diff "c0").ChangesUnder timeoutRepo.localPath info.path →
        WrittenIn (timeoutCheckout .printed) [] info ((timeoutPlan .printed).steps.take 4)) ↔
    (diffBase (timeoutCheckout .printed) ({} : RunOptions Unit) (some "c0") = some "c0" →
      ∀ info ∈ ((timeoutCheckout .printed).registry timeoutRepo).modules,
        ((timeoutCheckout .printed).diff "c0").ChangesUnder timeoutRepo.localPath info.path →
          ((timeoutCheckout .printed).diff "c0").LeadsTo (timeoutCheckout .printed).files
            timeoutRepo.localPath info.path) := by
  have hplan : planIndexRepo timeoutRepo (timeoutCheckout .printed) ({} : RunOptions Unit)
      (timeoutWorld.db.getRepoHeadSha timeoutRepo.id) = .ok (timeoutPlan .printed) := rfl
  have hstored : timeoutWorld.db.getRepoHeadSha timeoutRepo.id = some "c0" := by decide
  have hadvanced : (indexRepoUpTo 4 timeoutRepo (timeoutCheckout .printed) {}
      timeoutWorld).1.db.getRepoHeadSha timeoutRepo.id = some "c1" := by decide
  exact covered_iff hplan hstored (by decide) hadvanced

end OdooSemantic
