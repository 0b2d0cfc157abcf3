import OdooSemantic.Indexer.ModuleNodes
import OdooSemantic.Proof.LostReset

/-!
# Which dependent repos a run resets

A run that has moved the head of its repo is supposed to leave every other repo `NULL` that
owns a module depending on one the run wrote. Between that sentence and the code stand five
comparisons, each of which can fail on its own: the run must have gone by the diff, it must
have come as far as the reset, the dependent module must not be called like a module of the
run, its `repo` must not be called like the repo of the run, and it must be the text after
the last slash of the registered path.

`reset_iff` puts the five together, on the state before the run: it says of every dependent
repo when its head is `NULL` in the end, the retry of an interrupted run included.
-/

namespace OdooSemantic

open PosixPath

variable {Vec : Type}

/-! ## What the query finds -/

section Found

variable (repo : Repo) (co : Checkout) (opts : RunOptions Vec) (stored : Option String)

/-- The run collects the module node `c` as garbage. -/
def Collects (g : Graph) (c : ModuleKey) : Prop :=
  opts.gc = true ∧ g.isStale (name repo.localPath) repo.odooVersion (co.livePaths repo) c = true ∧
    ∀ info ∈ writtenModules repo co opts stored, info.key ≠ c

/-- `basename` is the repo of a module that the run is going to find: by names and by the
    version of the repo's profile. -/
def Finds (g : Graph) (basename : String) : Prop :=
  basename ≠ name repo.localPath ∧
  ∃ d c : ModuleKey, (d, c) ∈ g.dependsOn ∧ d.odooVersion = repo.odooVersion ∧
    c.odooVersion = repo.odooVersion ∧
    (∃ info ∈ writtenModules repo co opts stored, info.name = c.name) ∧
    (∀ info ∈ writtenModules repo co opts stored, info.name ≠ d.name) ∧
    g.moduleRepo d = some basename ∧ ¬ Collects repo co opts stored g c

theorem mem_changedModuleNames {n : String} :
    n ∈ changedModuleNames (modulesByVersion repo co opts stored) ↔
      ∃ info ∈ writtenModules repo co opts stored, info.name = n := by
  have hfiled := wellFiled_modulesByVersion repo co opts stored
  unfold writtenModules
  simp only [changedModuleNames, List.mem_flatMap, Registry.mem_modules]
  constructor
  · intro h
    obtain ⟨mods, hmods, hn⟩ := h
    obtain ⟨⟨v, _⟩, hv, rfl⟩ := List.mem_map.mp hmods
    obtain ⟨⟨_, info⟩, hinfo, rfl⟩ := List.mem_map.mp hn
    exact ⟨info, ⟨v, _, _, hv, hinfo⟩, hfiled.name v _ _ info hv hinfo⟩
  · intro h
    obtain ⟨info, ⟨v, mods, n', hv, hinfo⟩, rfl⟩ := h
    obtain rfl := hfiled.name v mods n' info hv hinfo
    exact ⟨mods, List.mem_map.mpr ⟨_, hv, rfl⟩, List.mem_map.mpr ⟨_, hinfo, rfl⟩⟩

/-- The facts about the writes of a plan that the module nodes hang on. -/
theorem planned_planWrites :
    (∀ s ∈ planWrites repo co opts stored,
      Planned co opts.ancestorProfiles (writtenModules repo co opts stored) s) ∧
    (∀ info ∈ writtenModules repo co opts stored,
      .writeResult opts.ancestorProfiles (co.parseResult info) ∈
        planWrites repo co opts stored) ∧
    ∀ info ∈ writtenModules repo co opts stored, info.path ∈ co.livePaths repo :=
  ⟨fun _ hs => planned_of_mem_planWrites _ _ _ _ hs,
    fun _ hinfo => writeResult_mem_planWrites _ _ _ _ hinfo,
    fun _ hinfo => List.mem_map_of_mem ((mem_modulesByVersion _ _ _ _).mp hinfo).1⟩

/-- The index the run leaves behind its writes and its garbage collection. -/
def indexAfter (ix : Index Vec) : Index Vec :=
  WriteStep.execAll (planWrites repo co opts stored ++ gcSteps repo co opts) ix

/-- The module nodes a run takes out: none, or the stale ones. -/
theorem indexAfter_cases (ix : Index Vec) :
    (opts.gc = false ∨ co.livePaths repo = []) ∧
      indexAfter repo co opts stored ix = WriteStep.execAll (planWrites repo co opts stored) ix ∨
    opts.gc = true ∧ (indexAfter repo co opts stored ix).graph =
      gcStaleModules (name repo.localPath) repo.odooVersion (co.livePaths repo)
        (WriteStep.execAll (planWrites repo co opts stored) ix).graph := by
  unfold indexAfter gcSteps
  split
  · rename_i hcond
    rw [Bool.and_eq_true] at hcond
    refine Or.inr ⟨hcond.1, ?_⟩
    rw [WriteStep.execAll_append]
    rfl
  · rename_i hcond
    rw [Bool.and_eq_true, not_and_or, Bool.not_eq_true, Bool.not_eq_true', Bool.not_eq_false,
      List.isEmpty_iff] at hcond
    exact Or.inl ⟨hcond, by rw [List.append_nil]⟩

/-- **What `find_dependent_repos` answers**, on the graph the run has written and collected. -/
theorem mem_findDependentRepos_plan (ix : Index Vec) (basename : String) :
    basename ∈ (findDependentRepos (indexAfter repo co opts stored ix).graph repo.odooVersion
        (changedModuleNames (modulesByVersion repo co opts stored))).filter
        (· ≠ name repo.localPath) ↔
      Finds repo co opts stored ix.graph basename := by
  obtain ⟨hplan, hown, hlive⟩ := planned_planWrites repo co opts stored
  rw [Finset.mem_filter, mem_findDependentRepos, and_comm]
  refine and_congr_right fun hne => ?_
  simp only [mem_changedModuleNames, not_exists, not_and]
  refine exists_congr fun d => exists_congr fun c => ?_
  by_cases hd : ∀ info ∈ writtenModules repo co opts stored, info.name ≠ d.name
  · have hkey : ∀ info ∈ writtenModules repo co opts stored, info.key ≠ d :=
      fun info hinfo heq => hd info hinfo (heq ▸ rfl)
    have hedge := mem_dependsOn_writes hplan hkey (c := c) ix
    have hrepo := moduleRepo_writes hplan hkey ix
    by_cases hc : ∃ info ∈ writtenModules repo co opts stored, info.name = c.name
    · rcases indexAfter_cases repo co opts stored ix with ⟨hoff, hix⟩ | ⟨hon, hix⟩
      · have hoff' : opts.gc = false := by
          refine hoff.resolve_right fun hnil => ?_
          obtain ⟨info, hinfo, -⟩ := hc
          exact absurd (hlive info hinfo) (by rw [hnil]; simp)
        have hkeep : ¬ Collects repo co opts stored ix.graph c := by
          intro h
          exact absurd (h.1.symm.trans hoff') (by simp)
        rw [hix, hedge, hrepo]
        tauto
      · rw [hix, mem_dependsOn_gcStaleModules, moduleRepo_gcStaleModules, hedge, hrepo]
        have hdead := isStale_writes hplan hown hlive (name repo.localPath) repo.odooVersion ix c
        have hstale : (WriteStep.execAll (planWrites repo co opts stored) ix).graph.isStale
              (name repo.localPath) repo.odooVersion (co.livePaths repo) c = false ↔
            ¬ Collects repo co opts stored ix.graph c := by
          rw [← Bool.not_eq_true, hdead, Collects, and_iff_right hon]
        have halive : ix.graph.moduleRepo d = some basename →
            (WriteStep.execAll (planWrites repo co opts stored) ix).graph.isStale
              (name repo.localPath) repo.odooVersion (co.livePaths repo) d = false := by
          intro hr
          rw [← Bool.not_eq_true]
          intro hst
          have hown' := moduleRepo_of_isStale hst
          rw [hrepo, hr] at hown'
          exact hne (Option.some.inj hown')
        rw [hstale]
        constructor
        · intro h
          obtain ⟨⟨he, hdst, hcst⟩, hdv, hcv, hcn, hdn, hr⟩ := h
          rw [hdst] at hr
          exact ⟨he, hdv, hcv, hcn, hdn, hr, hcst⟩
        · intro h
          obtain ⟨he, hdv, hcv, hcn, hdn, hr, hcst⟩ := h
          refine ⟨⟨he, halive hr, hcst⟩, hdv, hcv, hcn, hdn, ?_⟩
          rw [halive hr]
          exact hr
    · exact iff_of_false (fun h => hc h.2.2.2.1) fun h => hc h.2.2.2.1
  · exact iff_of_false (fun h => hd h.2.2.2.2.1) fun h => hd h.2.2.2.2.1

end Found

/-! ## The steps behind the writes -/

section Steps

variable {repo : Repo} {co : Checkout} {opts : RunOptions Vec} {w : World Vec}
  {plan : IndexPlan Vec}

/-- The three steps of the propagation do nothing before the third. -/
theorem db_execAll_propagate (version own : String) (changed : List String) (m : Nat)
    (l : Locals) (w : World Vec) :
    (IndexStep.execAll (([DbStep.findDependentRepos version changed own, .getRepoIds,
        .resetHeadSha].take m).map .db) (l, w)).1.db =
      if 3 ≤ m then
        w.db.resetHeadSha (w.db.getRepoIdsByLocalPathBasenames
          ((findDependentRepos w.index.graph version changed).filter (· ≠ own)))
      else w.db := by
  match m with
  | 0 => rfl
  | 1 => rfl
  | 2 => rfl
  | m + 3 =>
    rw [if_pos (by omega), List.take_of_length_le (by simp)]
    rfl

theorem execAll_updateHeadSha {id : Nat} {sha : String} {db db' : Db} {ds : List DbStep} {m : Nat}
    (hm : 0 < m) (hdb : db.updateRepoHeadSha id sha = .ok db') (l : Locals) (ix : Index Vec) :
    IndexStep.execAll (((DbStep.updateHeadSha id sha :: ds).take m).map .db) (l, ⟨ix, db⟩) =
      IndexStep.execAll ((ds.take (m - 1)).map .db) (l, ⟨ix, db'⟩) := by
  obtain ⟨m, rfl⟩ := Nat.exists_eq_add_of_lt hm
  rw [Nat.zero_add, List.take_succ_cons, List.map_cons, IndexStep.execAll]
  simp only [IndexStep.exec, DbStep.exec, hdb, Nat.add_sub_cancel]

/-- The part of the propagation that is executed clears a head, if it is the whole of it, or
    leaves it. -/
theorem getRepoHeadSha_execAll_propagate {stored : Option String} (hpg : opts.pgConn = true)
    {db : Db} (ix : Index Vec) (m b : Nat) {r : RepoRow} (hrow : db.repos.lookup b = some r) :
    (IndexStep.execAll (((propagateSteps repo co opts stored
        (changedModuleNames (modulesByVersion repo co opts stored))).take m).map .db)
        ({}, ⟨indexAfter repo co opts stored ix, db⟩)).1.db.getRepoHeadSha b = none ↔
      db.getRepoHeadSha b = none ∨
        (isIncremental co opts stored = true ∧
          (propagateSteps repo co opts stored
            (changedModuleNames (modulesByVersion repo co opts stored))).length ≤ m ∧
          Finds repo co opts stored ix.graph (afterLastSlash r.localPath)) := by
  unfold propagateSteps
  split
  · rename_i hcond
    rw [Bool.and_eq_true, Bool.and_eq_true] at hcond
    rw [db_execAll_propagate, ← mem_findDependentRepos_plan, and_iff_right hcond.1.1]
    split
    · rename_i hm
      have hids : ∀ basenames, b ∈ db.getRepoIdsByLocalPathBasenames basenames ↔
          afterLastSlash r.localPath ∈ basenames := by
        intro basenames
        rw [Db.mem_getRepoIdsByLocalPathBasenames]
        exact ⟨fun ⟨r', hr', h⟩ => Option.some.inj (hrow.symm.trans hr') ▸ h, fun h => ⟨r, hrow, h⟩⟩
      rw [Db.getRepoHeadSha_resetHeadSha, and_iff_right (by exact hm)]
      split
      · rename_i hmem
        exact iff_of_true rfl (Or.inr ((hids _).mp hmem))
      · rename_i hmem
        exact (or_iff_left fun h => hmem ((hids _).mpr h)).symm
    · rename_i hm
      exact (or_iff_left fun h => hm h.1).symm
  · rename_i hcond
    simp only [List.take_nil, List.map_nil, IndexStep.execAll]
    refine (or_iff_left fun h => hcond ?_).symm
    obtain ⟨hincremental, -, -, d, c, -, -, -, hc, -⟩ := h
    have hne : changedModuleNames (modulesByVersion repo co opts stored) ≠ [] :=
      List.ne_nil_of_mem ((mem_changedModuleNames repo co opts stored).mpr hc)
    simp [hincremental, hpg, hne]

/-- **The head of another repo after a run that has moved its own**: cleared if the run got to
    its last step, and that was the reset of this repo. -/
theorem getRepoHeadSha_advanced {h0 h1 : String} {n b : Nat} {r : RepoRow}
    (hplan : planIndexRepo repo co opts (w.db.getRepoHeadSha repo.id) = .ok plan)
    (hstored : w.db.getRepoHeadSha repo.id = some h0) (hne : h0 ≠ h1)
    (hadvanced : (indexRepoUpTo n repo co opts w).1.db.getRepoHeadSha repo.id = some h1)
    (hb : b ≠ repo.id) (hrow : w.db.repos.lookup b = some r) :
    (indexRepoUpTo n repo co opts w).1.db.getRepoHeadSha b = none ↔
      r.headSha = none ∨ (isIncremental co opts (some h0) = true ∧ plan.steps.length ≤ n ∧
        Finds repo co opts (some h0) w.index.graph (afterLastSlash r.localPath)) := by
  obtain ⟨hpast, hun, hpg, current, hcurrent, hhead⟩ :=
    advanced_spec hplan hstored hne hadvanced
  have hmem : repo.id ∈ w.db.repos := by
    rw [← AList.lookup_isSome]
    unfold Db.getRepoHeadSha at hstored
    obtain ⟨row, hlook, -⟩ := Option.bind_eq_some_iff.mp hstored
    rw [hlook, Option.isSome_some]
  obtain ⟨db, hdb⟩ : ∃ db, w.db.updateRepoHeadSha repo.id current = .ok db :=
    ⟨_, by rw [Db.updateRepoHeadSha, if_pos hmem]⟩
  have hrow' : db.repos.lookup b = some r := by
    rw [(Db.updateRepoHeadSha_eq_ok hdb).2, Db.lookup_updateRow, if_neg hb, hrow]
  have hother : db.getRepoHeadSha b = r.headSha := by
    rw [Db.getRepoHeadSha, hrow', Option.bind_some]
  have hlength : plan.steps.length =
      (plan.writes ++ plan.gc).length + (plan.propagate.length + 1) := by
    rw [IndexPlan.steps, List.length_append, List.length_map, List.length_map, List.length_append,
      List.length_append, hhead, List.length_singleton, Nat.add_comm 1]
  -- behind the writes: the update, and then as much of the propagation as is left
  have hrun : (indexRepoUpTo n repo co opts w).1 =
      (IndexStep.execAll
        ((plan.propagate.take (n - (plan.writes ++ plan.gc).length - 1)).map .db)
        ({}, ⟨WriteStep.execAll (plan.writes ++ plan.gc) w.index, db⟩)).1 := by
    rw [indexRepoUpTo_eq hplan, IndexPlan.take_steps, IndexStep.execAll_write,
      List.take_of_length_le hpast.le, hhead, List.singleton_append,
      execAll_updateHeadSha (Nat.sub_pos_of_lt hpast) hdb]
  rw [hstored] at hplan
  rcases planIndexRepo_cases hplan with ⟨hsame, -⟩ | ⟨-, -, hnone, rfl⟩ | ⟨-, rfl⟩
  · exact absurd (hsame.symm.trans hun) (by simp)
  · -- no module at a changed path: nothing is reset, and there was nothing to reset
    rw [hrun]
    simp only [List.take_nil, List.map_nil, IndexStep.execAll, hother]
    refine ⟨Or.inl, fun h => h.resolve_right fun hright => ?_⟩
    obtain ⟨-, d, c, -, -, -, ⟨info, hinfo, -⟩, -⟩ := hright.2.2
    rw [writtenModules, hnone] at hinfo
    exact absurd hinfo (by simp)
  · have hend : (fullPlan repo co opts (some h0)
          (modulesByVersion repo co opts (some h0))).propagate.length ≤
          n - (planWrites repo co opts (some h0) ++ gcSteps repo co opts).length - 1 ↔
        (fullPlan repo co opts (some h0)
          (modulesByVersion repo co opts (some h0))).steps.length ≤ n := by
      rw [hlength]
      have hpast' : (planWrites repo co opts (some h0) ++ gcSteps repo co opts).length < n := hpast
      show _ ↔ (planWrites repo co opts (some h0) ++ gcSteps repo co opts).length + _ ≤ n
      omega
    rw [hrun, ← hother, ← hend]
    exact getRepoHeadSha_execAll_propagate hpg w.index _ b hrow'

end Steps

/-! ## The statement -/

section Statement

variable (repo : Repo) (co : Checkout) (opts : RunOptions Vec) (stored : Option String)
  (w : World Vec)

/-- The module `d` was written from a directory of the repo. -/
def Owned (g : Graph) (r : RepoRow) (d : ModuleKey) : Prop :=
  ∃ p, g.modules.lookup d = some p ∧ p.repo = some (name r.localPath) ∧
    ∃ dir, dir ≠ [] ∧ p.path = some (under r.localPath dir)

/-- Another registered repo of the same version, with a module that depends directly on one
    that the run writes. -/
structure Dependent (b : Nat) (r : RepoRow) : Prop where
  registered : w.db.repos.lookup b = some r
  other : b ≠ repo.id
  version : ∃ p, w.db.profiles.lookup r.profileId = some p ∧ p.odooVersion = repo.odooVersion
  depends : ∃ d c, (d, c) ∈ w.index.graph.dependsOn ∧ Owned w.index.graph r d ∧
    ∃ info ∈ writtenModules repo co opts stored, info.key = c

/-- A run of which at most `n` steps are executed, and then the next run with the same
    arguments. -/
def retried (n : Nat) : World Vec :=
  (indexRepo repo co opts (indexRepoUpTo n repo co opts w).1).1

end Statement

section Propagation

variable {repo : Repo} {co : Checkout} {opts : RunOptions Vec} {w : World Vec}
  {plan : IndexPlan Vec} {h0 h1 : String} {n : Nat}

/-- A run goes by the diff unless git answers that the stored head is not an ancestor. -/
theorem isIncremental_iff (hfull : opts.fullReindex = false) (hpg : opts.pgConn = true)
    {current : String} (hcurrent : co.currentHead = some current) :
    isIncremental co opts (some h0) = true ↔
      (h0 ≠ "" → isAncestor (co.ancestry h0) = true) := by
  have hread : readHead opts (some h0) = some h0 := by
    simp [readHead, hfull, hpg]
  have hlast : (lastHead co opts (some h0)).isSome = true ↔
      (h0 ≠ "" → isAncestor (co.ancestry h0) = true) := by
    by_cases hempty : h0 = ""
    · have htruthy : truthy (some h0) = none := by
        simp [truthy, hempty]
      simp only [lastHead, hcurrent, hread, htruthy]
      simp [hempty]
    · have htruthy : truthy (some h0) = some h0 := by
        simp [truthy, hempty]
      simp only [lastHead, hcurrent, hread, htruthy]
      by_cases hanc : isAncestor (co.ancestry h0) = true
      · simp [hanc]
      · simp [hanc, hempty]
  rw [isIncremental, hcurrent, hfull, Option.isSome_some, Bool.and_true, Bool.not_false,
    Bool.and_true, hlast]

/-- **The retry of a run that has moved the head is a skip**: whatever was left to do stays
    undone. -/
theorem retried_eq (hfull : opts.fullReindex = false)
    (hplan : planIndexRepo repo co opts (w.db.getRepoHeadSha repo.id) = .ok plan)
    (hstored : w.db.getRepoHeadSha repo.id = some h0) (hne : h0 ≠ h1)
    (hadvanced : (indexRepoUpTo n repo co opts w).1.db.getRepoHeadSha repo.id = some h1)
    (hcurrent : co.currentHead = some h1) :
    retried repo co opts w n = (indexRepoUpTo n repo co opts w).1 := by
  obtain ⟨-, -, hpg, -⟩ := advanced_spec hplan hstored hne hadvanced
  have hskip : planIndexRepo repo co opts
      ((indexRepoUpTo n repo co opts w).1.db.getRepoHeadSha repo.id) = .ok {} := by
    rw [hadvanced]
    exact planIndexRepo_of_isUnchanged (isDir_of_planIndexRepo hplan)
      (isUnchanged_currentHead hfull hpg hcurrent)
  rw [retried, indexRepo_eq hskip]
  rfl

/-- **When every dependent repo is reset.** A run, not forced to be full, has moved its head
    from `h0` to the `h1` of the checkout, was perhaps cut short after that, and is retried. -/
theorem propagation_iff (hfull : opts.fullReindex = false)
    (hplan : planIndexRepo repo co opts (w.db.getRepoHeadSha repo.id) = .ok plan)
    (hstored : w.db.getRepoHeadSha repo.id = some h0) (hne : h0 ≠ h1)
    (hadvanced : (indexRepoUpTo n repo co opts w).1.db.getRepoHeadSha repo.id = some h1)
    (hcurrent : co.currentHead = some h1) :
    (∀ b r, Dependent repo co opts (some h0) w b r →
      (retried repo co opts w n).db.getRepoHeadSha b = none) ↔
    ∀ b r, Dependent repo co opts (some h0) w b r →
      r.headSha = none ∨
      ((h0 ≠ "" → isAncestor (co.ancestry h0) = true) ∧ plan.steps.length ≤ n ∧
        Finds repo co opts (some h0) w.index.graph (afterLastSlash r.localPath)) := by
  obtain ⟨-, -, hpg, -⟩ := advanced_spec hplan hstored hne hadvanced
  rw [retried_eq hfull hplan hstored hne hadvanced hcurrent,
    ← isIncremental_iff hfull hpg hcurrent]
  refine forall_congr' fun b => forall_congr' fun r => forall_congr' fun hdep => ?_
  exact getRepoHeadSha_advanced hplan hstored hne hadvanced hdep.other hdep.registered

end Propagation

/-! ### The two repos once more

`sale` of the second repo depends on `base`, which the first one writes. -/

def pairProfile : ProfileRow := { name := "pair", odooVersion := "17.0" }

def pairDb : Db := { crossingWorld.db with profiles := AList.insert 1 pairProfile ∅ }

def pairWorld : World Unit := { crossingWorld with db := pairDb }

def pairRepo : Repo := ⟨1, "/srv/a", "17.0"⟩

def pairCheckout : Checkout := crossingCheckout "a1" "base" []

def pairPlan : IndexPlan Unit :=
  fullPlan pairRepo pairCheckout {} (some "a0")
    (modulesByVersion pairRepo pairCheckout ({} : RunOptions Unit) (some "a0"))

theorem planIndexRepo_pair :
    planIndexRepo pairRepo pairCheckout {} (pairWorld.db.getRepoHeadSha pairRepo.id) =
      .ok pairPlan := rfl

theorem dependent_pair :
    Dependent pairRepo pairCheckout ({} : RunOptions Unit) (some "a0") pairWorld 2
      (crossingRow "/srv/b" "b0") := by
  refine ⟨rfl, by decide, ⟨pairProfile, rfl, rfl⟩, ⟨"sale", "17.0"⟩, ⟨"base", "17.0"⟩, by decide,
    ⟨crossingSale, rfl, by decide, ["sale"], by decide, by decide⟩, ?_⟩
  decide

/-- **A run that ends between the update of its head and the reset leaves the dependent repo
    as it was**, for good: the retry is a skip. -/
theorem propagation_lost :
    (indexRepoUpTo 4 pairRepo pairCheckout {} pairWorld).1.db.getRepoHeadSha 1 = some "a1" ∧
    Dependent pairRepo pairCheckout ({} : RunOptions Unit) (some "a0") pairWorld 2
      (crossingRow "/srv/b" "b0") ∧
    (retried pairRepo pairCheckout {} pairWorld 4).db.getRepoHeadSha 2 = some "b0" :=
  ⟨by decide, dependent_pair, by decide⟩

/-- The run to its end resets it. -/
theorem propagation_iff_pair :
    (∀ b r, Dependent pairRepo pairCheckout ({} : RunOptions Unit) (some "a0") pairWorld b r →
      (retried pairRepo pairCheckout {} pairWorld 7).db.getRepoHeadSha b = none) ↔
    ∀ b r, Dependent pairRepo pairCheckout ({} : RunOptions Unit) (some "a0") pairWorld b r →
      r.headSha = none ∨
      (("a0" ≠ "" → isAncestor (pairCheckout.ancestry "a0") = true) ∧ pairPlan.steps.length ≤ 7 ∧
        Finds pairRepo pairCheckout ({} : RunOptions Unit) (some "a0") pairWorld.index.graph
          (afterLastSlash r.localPath)) :=
  propagation_iff rfl planIndexRepo_pair rfl (by decide : "a0" ≠ "a1") (by decide) rfl

end OdooSemantic
