import OdooSemantic.Indexer.ModuleNodes

/-!
# A run that raises, and the run after it

The plan of a run is the same for the retry as long as the stored head has not moved, and its
merging transactions absorb whatever part of them was executed before
(`WriteStep.execAll_replay`). What is left to look at is the one transaction that is not a
merge. Garbage collection takes out modules that are gone from the checkout, and among them
may be one that a live module still names in its `depends`: the first run deletes it, and the
retry merges it again, as a bare dependency that garbage collection no longer recognises. So
the retry converges except from the one point between the deletion and the update of the
head, and there exactly if there is no such module (`retry_converges_iff`).
-/

namespace OdooSemantic

open KeyedStore PosixPath

variable {Vec : Type}

/-! ## One module, twice -/

section Pass

variable (ps : List String) {repo version : String} {live : List String} {k : ModuleKey}

/-- What the writes and the garbage collection of a run leave of one module. -/
def pass (repo version : String) (live : List String) (k : ModuleKey) (ts : List ModuleMerge)
    (o : Option ModuleProps) : Option ModuleProps :=
  if isStaleModule repo version live k (runLetters (ModuleMerge.apply ps) ts o) then none
  else runLetters (ModuleMerge.apply ps) ts o

/-- A module that one pass keeps is the same after another. -/
theorem pass_pass_of_kept {ts : List ModuleMerge} {o : Option ModuleProps}
    (h : isStaleModule repo version live k (runLetters (ModuleMerge.apply ps) ts o) = false) :
    pass ps repo version live k ts (pass ps repo version live k ts o) =
      pass ps repo version live k ts o := by
  have habsorb := (ModuleMerge.absorbing ps).runLetters_runLetters (fun t (ht : t ∈ ts) => ht) o
  simp only [pass, h, Bool.false_eq_true, if_false, habsorb]

/-- **A second pass restores what the first one took out**, where letters other than the
    module's own are sent to it. -/
theorem pass_pass_iff {ts : List ModuleMerge} (hlive : ∀ m, .write m ∈ ts → m.path ∈ live)
    (o : Option ModuleProps) :
    pass ps repo version live k ts (pass ps repo version live k ts o) =
        pass ps repo version live k ts o ↔
      ¬ (isStaleModule repo version live k o = true ∧ (∀ m, .write m ∉ ts) ∧ ts ≠ []) := by
  by_cases hw : ∃ m, ModuleMerge.write m ∈ ts
  · obtain ⟨m, hm⟩ := hw
    obtain ⟨p, path, hrun, hp, hpath⟩ := runLetters_of_write ps hlive hm o
    refine iff_of_true (pass_pass_of_kept ps ?_) fun h => h.2.1 m hm
    rw [Bool.eq_false_iff, Ne, isStaleModule_iff, hrun]
    intro h
    obtain ⟨-, p', path', hl, -, hp', hno⟩ := h
    obtain rfl := Option.some.inj hl
    rw [hp] at hp'
    exact hno (Option.some.inj hp' ▸ hpath)
  · have hno : ∀ m, ModuleMerge.write m ∉ ts := fun m hm => hw ⟨m, hm⟩
    have hkeep := runLetters_of_no_write ps hno
    by_cases hts : ts = []
    · subst hts
      refine iff_of_true ?_ fun h => h.2.2 rfl
      have hnone : isStaleModule repo version live k none = false := rfl
      by_cases hst : isStaleModule repo version live k o = true <;>
        simp [pass, runLetters, hst, hnone]
    · cases hst : isStaleModule repo version live k
        (runLetters (ModuleMerge.apply ps) ts o) with
      | false =>
        refine iff_of_true (pass_pass_of_kept ps hst) fun h => ?_
        obtain ⟨-, p, -, rfl, -⟩ := isStaleModule_iff.mp h.1
        have hcongr : isStaleModule repo version live k
            (runLetters (ModuleMerge.apply ps) ts (some p)) =
            isStaleModule repo version live k (some p) :=
          isStaleModule_congr (by simp [isSome_runLetters ps hts]) (hkeep _).1 (hkeep _).2
        rw [hcongr, h.1] at hst
        exact absurd hst (by simp)
      | true =>
        obtain ⟨hv, p, path, hrun, hrepo, hpath, hnot⟩ := isStaleModule_iff.mp hst
        have ho : isStaleModule repo version live k o = true := by
          cases o with
          | none =>
            have := (hkeep none).1
            simp [hrun, hrepo] at this
          | some q =>
            rw [← hst]
            exact isStaleModule_congr (by simp [hrun]) (hkeep _).1.symm (hkeep _).2.symm
        refine iff_of_false ?_ fun h => h ⟨ho, hno, hts⟩
        -- the first pass leaves nothing, the second a module without a repo
        have hfresh : isStaleModule repo version live k
            (runLetters (ModuleMerge.apply ps) ts none) = false := by
          rw [Bool.eq_false_iff, Ne, isStaleModule_iff]
          intro h
          obtain ⟨-, p', path', hl, hrepo', -, -⟩ := h
          have := (hkeep none).1
          simp [hl, hrepo'] at this
        have hsome := isSome_runLetters ps hts none
        intro heq
        simp only [pass, hst, hfresh, if_true, Bool.false_eq_true, if_false] at heq
        rw [heq] at hsome
        exact absurd hsome (by simp)

end Pass

/-! ## Garbage collection, and then the run again -/

section Retry

variable {co : Checkout} {ps : List String} {written : List ModuleInfo}
  {repo version : String} {live : List String} {ws : List (WriteStep Vec)}

/-- The writes of a run and its garbage collection. -/
def writeAndGc (repo version : String) (live : List String) (ws : List (WriteStep Vec))
    (ix : Index Vec) : Index Vec :=
  WriteStep.exec (WriteStep.execAll ws ix) (.gcStaleModules repo version live)

/-- A stale module that a module of the list depends on and that is not itself in the list. -/
def StaleDependency (g : Graph) (repo version : String) (live : List String)
    (written : List ModuleInfo) (k : ModuleKey) : Prop :=
  g.isStale repo version live k = true ∧ (∀ info ∈ written, info.key ≠ k) ∧
    ∃ info ∈ written, ∃ dep ∈ info.depends, k = ⟨dep, info.odooVersion⟩

theorem lookup_modules_writeAndGc (hplan : ∀ s ∈ ws, Planned co ps written s) (ix : Index Vec)
    (k : ModuleKey) :
    (writeAndGc repo version live ws ix).graph.modules.lookup k =
      pass ps repo version live k (lettersAt k (ws.flatMap WriteStep.moduleMerges))
        (ix.graph.modules.lookup k) := by
  have hwrites : (WriteStep.execAll ws ix).graph.modules.lookup k =
      runLetters (ModuleMerge.apply ps) (lettersAt k (ws.flatMap WriteStep.moduleMerges))
        (ix.graph.modules.lookup k) := by
    rw [WriteStep.modules_execAll fun s hs => merges_of_planned (hplan s hs), lookup_mergeList]
  rw [pass, ← hwrites]
  exact lookup_modules_gcStaleModules _ _ _ _ k

/-- **Running writes and garbage collection a second time changes one kind of module**: the
    stale ones that a written module depends on come back. -/
theorem modules_writeAndGc_twice (hplan : ∀ s ∈ ws, Planned co ps written s)
    (hown : ∀ info ∈ written, .writeResult ps (co.parseResult info) ∈ ws)
    (hlive : ∀ info ∈ written, info.path ∈ live) (ix : Index Vec) (k : ModuleKey) :
    (writeAndGc repo version live ws (writeAndGc repo version live ws ix)).graph.modules.lookup k =
        (writeAndGc repo version live ws ix).graph.modules.lookup k ↔
      ¬ StaleDependency ix.graph repo version live written k := by
  have hmem : ∀ t, t ∈ lettersAt k (ws.flatMap WriteStep.moduleMerges) ↔
      ∃ s ∈ ws, (k, t) ∈ s.moduleMerges := by
    intro t
    rw [mem_lettersAt, List.mem_flatMap]
  rw [lookup_modules_writeAndGc hplan, lookup_modules_writeAndGc hplan, pass_pass_iff]
  · refine not_congr (and_congr_right fun _ => ?_)
    constructor
    · intro h
      obtain ⟨hno, hne⟩ := h
      have hkeys : ∀ info ∈ written, info.key ≠ k := by
        intro info hinfo hkey
        refine hno info ((hmem _).mpr ⟨_, hown info hinfo, ?_⟩)
        exact mem_moduleMerges_parseResult.mpr (Or.inl ⟨hkey.symm, rfl⟩)
      refine ⟨hkeys, ?_⟩
      obtain ⟨t, ht⟩ := List.exists_mem_of_ne_nil _ hne
      obtain ⟨s, hs, hks⟩ := (hmem t).mp ht
      cases reach_of_planned (hplan s hs) hks with
      | inl hinfo =>
        obtain ⟨info, hinfo, hkey⟩ := hinfo
        exact absurd hkey.symm (hkeys info hinfo)
      | inr hdep => exact hdep
    · intro h
      obtain ⟨hkeys, info, hinfo, dep, hdep, hkey⟩ := h
      constructor
      · intro m hm
        obtain ⟨s, hs, hks⟩ := (hmem _).mp hm
        obtain ⟨hmw, hkm⟩ := written_of_planned (hplan s hs) hks
        exact hkeys m hmw hkm.symm
      · refine List.ne_nil_of_mem ((hmem .union).mpr ⟨_, hown info hinfo, ?_⟩)
        exact mem_moduleMerges_parseResult.mpr (Or.inr (Or.inl ⟨dep, hdep, hkey, rfl⟩))
  · intro m hm
    obtain ⟨s, hs, hks⟩ := (hmem _).mp hm
    exact hlive m (written_of_planned (hplan s hs) hks).1

end Retry

/-! ## The retry -/

section Converges

variable {repo : Repo} {co : Checkout} {opts : RunOptions Vec} {w : World Vec}
  {plan : IndexPlan Vec}

theorem Index.SameNodes.refl (ix : Index Vec) : ix.SameNodes ix :=
  ⟨fun _ => rfl, fun _ => rfl, fun _ => rfl, fun _ => rfl, fun _ => rfl⟩

/-- Garbage collection does not tell the same nodes apart. -/
theorem Index.SameNodes.gcStaleModules {ix ix' : Index Vec} (h : ix.SameNodes ix')
    (repo version : String) (live : List String) :
    (WriteStep.exec ix (.gcStaleModules repo version live)).SameNodes
      (WriteStep.exec ix' (.gcStaleModules repo version live)) := by
  refine ⟨fun k => ?_, h.models, h.fields, h.methods, h.embeddings⟩
  have hl := h.modules k
  simp only [WriteStep.exec, lookup_modules_gcStaleModules, hl]

/-- A first part of the writes, and then all of them. -/
theorem sameNodes_replay_take {ps : List String} {ws : List (WriteStep Vec)}
    (h : ∀ s ∈ ws, s.Merges ps) (n : Nat) (ix : Index Vec) :
    (WriteStep.execAll ws (WriteStep.execAll (ws.take n) ix)).SameNodes
      (WriteStep.execAll ws ix) := by
  have hsplit : ∀ s ∈ ws.take n ++ ws.drop n, s.Merges ps := by rwa [List.take_append_drop]
  have hreplay := WriteStep.execAll_replay hsplit ix
  rwa [List.take_append_drop] at hreplay

/-- The other tables do not notice the garbage collection in between. -/
theorem sameNodes_writeAndGc_twice {ps : List String} {ws : List (WriteStep Vec)}
    {repo version : String} {live : List String} (h : ∀ s ∈ ws, s.Merges ps) (ix : Index Vec)
    (hmodules : ∀ k, (writeAndGc repo version live ws
        (writeAndGc repo version live ws ix)).graph.modules.lookup k =
      (writeAndGc repo version live ws ix).graph.modules.lookup k) :
    (writeAndGc repo version live ws (writeAndGc repo version live ws ix)).SameNodes
      (writeAndGc repo version live ws ix) := by
  have htwice := sameNodes_replay_take h ws.length ix
  rw [List.take_length] at htwice
  have hcode : (WriteStep.execAll ws (writeAndGc repo version live ws ix)).graph.code =
      (WriteStep.execAll ws (WriteStep.execAll ws ix)).graph.code :=
    WriteStep.code_execAll_congr h rfl
  simp only [Graph.code, Prod.mk.injEq] at hcode
  obtain ⟨hmodels, hfields, hmethods⟩ := hcode
  refine ⟨hmodules, fun k => ?_, fun k => ?_, fun k => ?_, fun k => ?_⟩
  · exact (congrArg (AList.lookup k) hmodels).trans (htwice.models k)
  · exact (congrArg (AList.lookup k) hfields).trans (htwice.fields k)
  · exact (congrArg (AList.lookup k) hmethods).trans (htwice.methods k)
  · refine Eq.trans ?_ (htwice.embeddings k)
    show (WriteStep.execAll ws _).embeddings.lookup k = _
    rw [WriteStep.lookup_embeddings_execAll h, WriteStep.lookup_embeddings_execAll h]
    rfl

/-- Whatever a run has decided, its writes are merges with one profile array. -/
theorem merges_of_plan
    (h : planIndexRepo repo co opts (w.db.getRepoHeadSha repo.id) = .ok plan) :
    ∀ s ∈ plan.writes, s.Merges opts.ancestorProfiles := by
  rcases planIndexRepo_cases h with ⟨-, rfl⟩ | ⟨-, -, -, rfl⟩ | ⟨-, rfl⟩
  · exact fun s hs => absurd hs (by simp)
  · exact fun s hs => absurd hs (by simp)
  · exact fun s hs => merges_of_planned (planned_of_mem_planWrites _ _ _ _ hs)

/-- Only a run that is not cut short collects garbage. -/
theorem gc_of_plan
    (h : planIndexRepo repo co opts (w.db.getRepoHeadSha repo.id) = .ok plan)
    (hgc : plan.gc ≠ []) :
    plan.writes = planWrites repo co opts (w.db.getRepoHeadSha repo.id) ∧
      plan.gc = [.gcStaleModules (name repo.localPath) repo.odooVersion (co.livePaths repo)] := by
  rcases planIndexRepo_cases h with ⟨-, rfl⟩ | ⟨-, -, -, rfl⟩ | ⟨-, rfl⟩
  · exact absurd rfl hgc
  · exact absurd rfl hgc
  · refine ⟨rfl, ?_⟩
    have hsteps : gcSteps repo co opts ≠ [] := hgc
    show gcSteps repo co opts = _
    unfold gcSteps at hsteps ⊢
    split at hsteps
    · rename_i hcond
      rw [if_pos hcond]
    · exact absurd rfl hsteps

/-- Past the head update, the next run finds nothing to do. -/
theorem isUnchanged_past_head
    (hplan : planIndexRepo repo co opts (w.db.getRepoHeadSha repo.id) = .ok plan) {n : Nat}
    (hn : n < plan.steps.length) (hpast : (plan.writes ++ plan.gc).length < n) :
    isUnchanged co opts
      ((indexRepoUpTo n repo co opts w).1.db.getRepoHeadSha repo.id) = true := by
  have hlen : plan.steps.length =
      (plan.writes ++ plan.gc).length + (plan.head ++ plan.propagate).length := by
    rw [IndexPlan.steps, List.length_append, List.length_map, List.length_map]
  have hhead : (headSteps repo co opts).length ≤ 1 := by
    unfold headSteps
    cases co.currentHead with
    | none => simp
    | some current => cases opts.pgConn <;> simp
  have hpropagate : plan.propagate ≠ [] ∧ plan.head = headSteps repo co opts ∧
      plan.propagate = propagateSteps repo co opts (w.db.getRepoHeadSha repo.id)
        (changedModuleNames (modulesByVersion repo co opts (w.db.getRepoHeadSha repo.id))) := by
    rcases planIndexRepo_cases hplan with ⟨-, rfl⟩ | ⟨-, -, -, rfl⟩ | ⟨-, rfl⟩
    · simp only [List.append_nil, List.length_nil] at hlen hpast
      omega
    · simp only [List.append_nil, List.length_nil] at hlen hpast
      omega
    · refine ⟨?_, rfl, rfl⟩
      intro hnil
      rw [hnil, List.append_nil] at hlen
      have : (fullPlan repo co opts (w.db.getRepoHeadSha repo.id) (modulesByVersion repo co opts
        (w.db.getRepoHeadSha repo.id))).head.length ≤ 1 := hhead
      omega
  obtain ⟨hne, hheadEq, hpropEq⟩ := hpropagate
  unfold propagateSteps at hpropEq
  split at hpropEq
  · rename_i hcond
    simp only [Bool.and_eq_true] at hcond
    obtain ⟨⟨hinc, hpg⟩, -⟩ := hcond
    obtain ⟨hfull, ⟨current, hcurrent⟩, last, hlast⟩ := isIncremental_spec hinc
    have hheadSteps : plan.head = [.updateHeadSha repo.id current] := by
      rw [hheadEq, headSteps, hcurrent]
      simp [hpg]
    have hrow : repo.id ∈ w.db.repos := by
      rw [← AList.lookup_isSome]
      unfold Db.getRepoHeadSha at hlast
      cases hl : w.db.repos.lookup repo.id with
      | none => rw [hl] at hlast; exact absurd hlast (by simp)
      | some r => rfl
    have hupdate : w.db.updateRepoHeadSha repo.id current =
        .ok (w.db.updateRow repo.id fun r => { r with headSha := some current }) :=
      if_pos hrow
    have hstored : (indexRepoUpTo n repo co opts w).1.db.getRepoHeadSha repo.id = some current := by
      have hm : n - (plan.writes ++ plan.gc).length = 1 ∨ n - (plan.writes ++ plan.gc).length = 2 ∨
          n - (plan.writes ++ plan.gc).length = 3 := by
        rw [hheadSteps, hpropEq] at hlen
        simp only [List.length_append, List.length_cons, List.length_nil] at hlen hn hpast ⊢
        omega
      have hdb : (indexRepoUpTo n repo co opts w).1.db =
          w.db.updateRow repo.id fun r => { r with headSha := some current } := by
        rw [indexRepoUpTo_eq hplan, IndexPlan.take_steps, IndexStep.execAll_write, hheadSteps,
          hpropEq]
        rcases hm with hm | hm | hm <;> rw [hm] <;>
          simp [IndexStep.execAll, IndexStep.exec, DbStep.exec, hupdate]
      rw [hdb, Db.getRepoHeadSha_updateRepoHeadSha hupdate, if_pos rfl]
    rw [hstored]
    exact isUnchanged_currentHead hfull hpg hcurrent
  · exact absurd hpropEq hne

/-- **A run that raises and is run again ends where an uninterrupted run ends**, and does not
    move the head before everything is written — except from one point. Between the deletion of
    the stale modules and the head update, it does so exactly if no stale module is a
    dependency that the run writes. -/
theorem retry_converges_iff
    (hplan : planIndexRepo repo co opts (w.db.getRepoHeadSha repo.id) = .ok plan) {n : Nat}
    (hn : n < plan.steps.length) :
    ((n ≤ (plan.writes ++ plan.gc).length →
        (indexRepoUpTo n repo co opts w).1.db.getRepoHeadSha repo.id =
          w.db.getRepoHeadSha repo.id) ∧
      (indexRepo repo co opts (indexRepoUpTo n repo co opts w).1).1.index.SameNodes
        (indexRepo repo co opts w).1.index) ↔
    ¬ (plan.gc ≠ [] ∧ n = plan.writes.length + 1 ∧
      ∃ k, StaleDependency w.index.graph (name repo.localPath) repo.odooVersion
        (co.livePaths repo)
        (writtenModules repo co opts (w.db.getRepoHeadSha repo.id)) k) := by
  have hmerges := merges_of_plan hplan
  have hfirst : (indexRepoUpTo n repo co opts w).1.index =
      WriteStep.execAll ((plan.writes ++ plan.gc).take n) w.index := by
    rw [indexRepoUpTo_eq hplan, IndexPlan.index_execAll_take]
  have hwhole : (indexRepo repo co opts w).1.index =
      WriteStep.execAll (plan.writes ++ plan.gc) w.index := by
    rw [indexRepo_eq hplan, IndexPlan.index_execAll_steps]
  by_cases hpast : n ≤ (plan.writes ++ plan.gc).length
  · have hdb : (indexRepoUpTo n repo co opts w).1.db = w.db := by
      rw [indexRepoUpTo_eq hplan, IndexPlan.db_execAll_take plan hpast]
    have hretry : (indexRepo repo co opts (indexRepoUpTo n repo co opts w).1).1.index =
        WriteStep.execAll (plan.writes ++ plan.gc)
          (WriteStep.execAll ((plan.writes ++ plan.gc).take n) w.index) := by
      rw [indexRepo_eq (by rw [hdb]; exact hplan), IndexPlan.index_execAll_steps, hfirst]
    rw [hretry, hwhole, hdb]
    have hkeep : (n ≤ (plan.writes ++ plan.gc).length →
        w.db.getRepoHeadSha repo.id = w.db.getRepoHeadSha repo.id) := fun _ => rfl
    by_cases hgc : plan.gc = []
    · refine iff_of_true ⟨hkeep, ?_⟩ fun h => h.1 hgc
      rw [hgc, List.append_nil]
      exact sameNodes_replay_take hmerges n w.index
    · obtain ⟨hplanEq, hgcEq⟩ := gc_of_plan hplan hgc
      by_cases hn' : n ≤ plan.writes.length
      · refine iff_of_true ⟨hkeep, ?_⟩ fun h => by omega
        rw [List.take_append_of_le_length hn', hgcEq, WriteStep.execAll_append,
          WriteStep.execAll_append]
        exact (sameNodes_replay_take hmerges n w.index).gcStaleModules _ _ _
      · have hlen : n = plan.writes.length + 1 := by
          rw [hgcEq, List.length_append, List.length_singleton] at hpast
          omega
        have hwritten : ∀ s ∈ plan.writes, Planned co opts.ancestorProfiles
            (writtenModules repo co opts (w.db.getRepoHeadSha repo.id)) s := by
          rw [hplanEq]
          exact fun s hs => planned_of_mem_planWrites _ _ _ _ hs
        have hown : ∀ info ∈ writtenModules repo co opts (w.db.getRepoHeadSha repo.id),
            .writeResult opts.ancestorProfiles (co.parseResult info) ∈ plan.writes := by
          rw [hplanEq]
          exact fun info hinfo => writeResult_mem_planWrites _ _ _ _ hinfo
        have hlive : ∀ info ∈ writtenModules repo co opts (w.db.getRepoHeadSha repo.id),
            info.path ∈ co.livePaths repo := fun info hinfo =>
          List.mem_map_of_mem ((mem_modulesByVersion _ _ _ _).mp hinfo).1
        have hall : (plan.writes ++ plan.gc).take n = plan.writes ++ plan.gc :=
          List.take_of_length_le (by rw [hgcEq, List.length_append, List.length_singleton]; omega)
        have hexec : ∀ ix : Index Vec, WriteStep.execAll (plan.writes ++ plan.gc) ix =
            writeAndGc (name repo.localPath) repo.odooVersion (co.livePaths repo) plan.writes ix := by
          intro ix
          rw [hgcEq, WriteStep.execAll_append]
          rfl
        rw [hall, hexec, hexec]
        constructor
        · intro h hcond
          obtain ⟨-, -, k, hk⟩ := hcond
          exact (modules_writeAndGc_twice hwritten hown hlive w.index k).mp (h.2.modules k) hk
        · intro h
          refine ⟨hkeep, sameNodes_writeAndGc_twice hmerges w.index fun k => ?_⟩
          refine (modules_writeAndGc_twice hwritten hown hlive w.index k).mpr fun hk => ?_
          exact h ⟨hgc, hlen, k, hk⟩
  · have hskip : indexRepo repo co opts (indexRepoUpTo n repo co opts w).1 =
        ((indexRepoUpTo n repo co opts w).1, none) := by
      have hunchanged := isUnchanged_past_head hplan hn (by omega)
      rw [indexRepo_eq (planIndexRepo_of_isUnchanged (isDir_of_planIndexRepo hplan) hunchanged)]
      rfl
    refine iff_of_true ⟨fun h => absurd h hpast, ?_⟩ ?_
    · rw [hskip, hfirst, hwhole, List.take_of_length_le (by omega)]
      exact Index.SameNodes.refl _
    · intro h
      obtain ⟨hgc, hn', -⟩ := h
      have : 0 < plan.gc.length := List.length_pos_iff.mpr hgc
      rw [List.length_append] at hpast
      omega

end Converges

/-! ### A renamed module that is still depended on

`addons/stock` has become `addons/inventory` some time ago, `sale` still names `stock`, and the
run raises in `update_repo_head_sha`. -/

def shopRepo : Repo := ⟨1, "/srv/addons", "17.0"⟩

def shopSale : ManifestFile where
  dir := ["sale"]
  manifest := some { version := "17.0.1.0.0", depends := ["stock"] }

def shopCheckout : Checkout where
  head := .completed 0 "c1\n"
  ancestry := fun _ => .completed 0 ""
  diff := fun _ => ⟨[], .printed⟩
  files := [["sale", "__manifest__.py"]]
  manifests := [shopSale]
  parse := Parsed.empty

def shopRun : RunOptions Unit := { gc := true, ancestorProfiles := ["shop"] }

def shopStock : ModuleProps where
  repo := some "addons"
  path := some "/srv/addons/stock"
  profile := some ["shop"]

def shopRow : RepoRow where
  profileId := 1
  url := "git@shop/addons"
  branch := "17.0"
  localPath := "/srv/addons"

def shopWorld : World Unit where
  index := { graph := { modules := AList.insert ⟨"stock", "17.0"⟩ shopStock ∅ } }
  db := { repos := AList.insert 1 shopRow ∅ }

def shopPlan : IndexPlan Unit :=
  fullPlan shopRepo shopCheckout shopRun none (modulesByVersion shopRepo shopCheckout shopRun none)

theorem planIndexRepo_shop :
    planIndexRepo shopRepo shopCheckout shopRun (shopWorld.db.getRepoHeadSha shopRepo.id) =
      .ok shopPlan := rfl

/-- The retry ends without an error and leaves a `stock` that one run does not leave. -/
theorem shop_retry_diverges :
    planIndexRepo shopRepo shopCheckout shopRun (shopWorld.db.getRepoHeadSha shopRepo.id) =
      .ok shopPlan ∧ 4 < shopPlan.steps.length ∧
    (indexRepo shopRepo shopCheckout shopRun
      (indexRepoUpTo 4 shopRepo shopCheckout shopRun shopWorld).1).2 = none ∧
    ¬ (indexRepo shopRepo shopCheckout shopRun
        (indexRepoUpTo 4 shopRepo shopCheckout shopRun shopWorld).1).1.index.SameNodes
      (indexRepo shopRepo shopCheckout shopRun shopWorld).1.index := by
  refine ⟨planIndexRepo_shop, by decide, by decide, ?_⟩
  intro h
  exact absurd (h.modules ⟨"stock", "17.0"⟩) (by decide)

/-- The equivalence at this run, where it is interrupted one step earlier. -/
theorem retry_converges_iff_shop :
    ((3 ≤ (shopPlan.writes ++ shopPlan.gc).length →
        (indexRepoUpTo 3 shopRepo shopCheckout shopRun shopWorld).1.db.getRepoHeadSha
          shopRepo.id = shopWorld.db.getRepoHeadSha shopRepo.id) ∧
      (indexRepo shopRepo shopCheckout shopRun
          (indexRepoUpTo 3 shopRepo shopCheckout shopRun shopWorld).1).1.index.SameNodes
        (indexRepo shopRepo shopCheckout shopRun shopWorld).1.index) ↔
    ¬ (shopPlan.gc ≠ [] ∧ 3 = shopPlan.writes.length + 1 ∧
      ∃ k, StaleDependency shopWorld.index.graph (name shopRepo.localPath) shopRepo.odooVersion
        (shopCheckout.livePaths shopRepo)
        (writtenModules shopRepo shopCheckout shopRun
          (shopWorld.db.getRepoHeadSha shopRepo.id)) k) :=
  retry_converges_iff planIndexRepo_shop (by decide)

end OdooSemantic
