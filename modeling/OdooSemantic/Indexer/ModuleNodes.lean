import OdooSemantic.Indexer.NodeTables

/-!
# The `Module` nodes under a plan

What a run does to one module node is decided by three facts about its plan: a module's own
`MERGE … SET` is sent for the modules the run writes and for no other; every other merge reaches
a module of the run or a dependency of one; and a merge that is not the module's own leaves
its repo and its path alone. The same for the `DEPENDS_ON` edges: a run adds edges out of the
modules it writes.
-/

namespace OdooSemantic

open KeyedStore PosixPath

variable {Vec : Type}

/-! ## What a plan merges -/

section Plan

variable {co : Checkout} {ps : List String} {written : List ModuleInfo}

theorem merges_of_planned {s : WriteStep Vec} (h : Planned co ps written s) : s.Merges ps := by
  cases h with
  | embed => exact (co.parse _).chunks_named
  | _ => rfl

/-- The merges of a plan reach the modules it writes and their dependencies. -/
theorem reach_of_planned {s : WriteStep Vec} (h : Planned co ps written s) {k : ModuleKey}
    {t : ModuleMerge} (hk : (k, t) ∈ s.moduleMerges) :
    (∃ info ∈ written, k = info.key) ∨
      ∃ info ∈ written, ∃ dep ∈ info.depends, k = ⟨dep, info.odooVersion⟩ := by
  cases h with
  | embed => exact absurd hk (by simp [WriteStep.moduleMerges])
  | @result info hinfo =>
    rcases mem_moduleMerges_parseResult.mp hk with ⟨hkey, -⟩ | ⟨dep, hdep, hkey, -⟩ | ⟨m, hm, hkey, -⟩
    · exact Or.inl ⟨info, hinfo, hkey⟩
    · exact Or.inr ⟨info, hinfo, dep, hdep, hkey⟩
    · obtain ⟨hname, hversion⟩ := (co.parse info).models_named m hm
      refine Or.inl ⟨info, hinfo, ?_⟩
      rw [hkey, ModelKey.moduleKey, ModelInfo.key, hname, hversion, ModuleInfo.key]
  | @view info hinfo =>
    refine Or.inl ⟨info, hinfo, ?_⟩
    rcases (mem_moduleMerges_viewParseResult hk).2 with ⟨v, hv, hkey⟩ | ⟨q, hq, hkey⟩
    · obtain ⟨hname, hversion⟩ := (co.parse info).views_named v hv
      rw [hkey, hname, hversion, ModuleInfo.key]
    · obtain ⟨hname, hversion⟩ := (co.parse info).qweb_named q hq
      rw [hkey, hname, hversion, ModuleInfo.key]
  | @js info hinfo =>
    refine Or.inl ⟨info, hinfo, ?_⟩
    rcases (mem_moduleMerges_jsGraphResult hk).2 with ⟨c, hc, hkey⟩ | ⟨p, hp, hkey⟩
    · obtain ⟨hname, hversion⟩ := (co.parse info).components_named c hc
      rw [hkey, hname, hversion, ModuleInfo.key]
    · obtain ⟨hname, hversion⟩ := (co.parse info).patches_named p hp
      rw [hkey, hname, hversion, ModuleInfo.key]
  | stylesheets hbatch =>
    obtain ⟨sheet, hsheet, hmem⟩ := List.mem_flatMap.mp hk
    obtain ⟨info, hinfo, hname, hversion⟩ := hbatch sheet hsheet
    obtain ⟨rfl, -⟩ := Prod.mk.inj (List.mem_singleton.mp hmem)
    exact Or.inl ⟨info, hinfo, by rw [hname, hversion]; rfl⟩

/-- The `MERGE … SET` of a module is sent with its own result, and for no other module than those
    the plan writes. -/
theorem result_of_planned {s : WriteStep Vec} (h : Planned co ps written s) {k : ModuleKey}
    {m : ModuleInfo} (hk : (k, .write m) ∈ s.moduleMerges) :
    m ∈ written ∧ k = m.key ∧ s = .writeResult ps (co.parseResult m) := by
  cases h with
  | embed => exact absurd hk (by simp [WriteStep.moduleMerges])
  | @result info hinfo =>
    rcases mem_moduleMerges_parseResult.mp hk with ⟨hkey, ht⟩ | ⟨dep, -, -, ht⟩ | ⟨m', -, -, ht⟩
    · obtain rfl : m = info := ModuleMerge.write.inj ht
      exact ⟨hinfo, hkey, rfl⟩
    · exact absurd ht (by simp)
    · exact absurd ht (by simp)
  | view => exact absurd (mem_moduleMerges_viewParseResult hk).1 (by simp)
  | js => exact absurd (mem_moduleMerges_jsGraphResult hk).1 (by simp)
  | stylesheets =>
    obtain ⟨sheet, -, hmem⟩ := List.mem_flatMap.mp hk
    exact absurd (Prod.mk.inj (List.mem_singleton.mp hmem)).2 (by simp)

theorem written_of_planned {s : WriteStep Vec} (h : Planned co ps written s) {k : ModuleKey}
    {m : ModuleInfo} (hk : (k, .write m) ∈ s.moduleMerges) : m ∈ written ∧ k = m.key :=
  ⟨(result_of_planned h hk).1, (result_of_planned h hk).2.1⟩

end Plan

/-! ## What the merges of a plan do to one module -/

section Letters

variable (ps : List String)

/-- Without a `MERGE … SET` among the letters, a module keeps its repo and its path. -/
theorem runLetters_of_no_write {ts : List ModuleMerge} (h : ∀ m, .write m ∉ ts)
    (o : Option ModuleProps) :
    ((runLetters (ModuleMerge.apply ps) ts o).getD {}).repo = (o.getD {}).repo ∧
      ((runLetters (ModuleMerge.apply ps) ts o).getD {}).path = (o.getD {}).path := by
  induction ts generalizing o with
  | nil => exact ⟨rfl, rfl⟩
  | cons t ts ih =>
    have htail := ih (fun m hm => h m (List.mem_cons_of_mem _ hm)) (some (t.apply ps o))
    cases t with
    | write m => exact absurd List.mem_cons_self (h m)
    | union => exact htail
    | touch => exact htail

/-- With one, it is at the path of one of the modules that are written. -/
theorem runLetters_of_write {ts : List ModuleMerge} {live : List String}
    (hlive : ∀ m, .write m ∈ ts → m.path ∈ live) {m : ModuleInfo} (hm : .write m ∈ ts)
    (o : Option ModuleProps) :
    ∃ p path, runLetters (ModuleMerge.apply ps) ts o = some p ∧ p.path = some path ∧
      path ∈ live := by
  -- once a module is at a live path, every letter leaves it at one
  have hkeep : ∀ (us : List ModuleMerge) (o : Option ModuleProps),
      (∀ m, .write m ∈ us → m.path ∈ live) →
      (∃ p path, o = some p ∧ p.path = some path ∧ path ∈ live) →
      ∃ p path, runLetters (ModuleMerge.apply ps) us o = some p ∧ p.path = some path ∧
        path ∈ live := by
    intro us
    induction us with
    | nil => exact fun o _ ho => ho
    | cons u us ih =>
      intro o hus ho
      refine ih _ (fun m hm => hus m (List.mem_cons_of_mem _ hm)) ?_
      obtain ⟨p, path, rfl, hp, hpath⟩ := ho
      cases u with
      | write m => exact ⟨_, m.path, rfl, rfl, hus m List.mem_cons_self⟩
      | union => exact ⟨_, path, rfl, hp, hpath⟩
      | touch => exact ⟨_, path, rfl, hp, hpath⟩
  induction ts generalizing o with
  | nil => exact absurd hm (by simp)
  | cons t ts ih =>
    have htail : ∀ m, .write m ∈ ts → m.path ∈ live :=
      fun m hm => hlive m (List.mem_cons_of_mem _ hm)
    cases List.mem_cons.mp hm with
    | inl heq =>
      subst heq
      exact hkeep ts _ htail ⟨_, m.path, rfl, rfl, hlive m List.mem_cons_self⟩
    | inr hmem => exact ih htail hmem _

/-- The repo and the path of a module were there before, or come from one `MERGE … SET`. -/
theorem origin_runLetters {ts : List ModuleMerge} {o : Option ModuleProps} {p : ModuleProps}
    (h : runLetters (ModuleMerge.apply ps) ts o = some p) {repo path : String}
    (hrepo : p.repo = some repo) (hpath : p.path = some path) :
    (∃ q, o = some q ∧ q.repo = some repo ∧ q.path = some path) ∨
      ∃ m, .write m ∈ ts ∧ m.repo = repo ∧ m.path = path := by
  induction ts generalizing o with
  | nil => exact Or.inl ⟨p, h, hrepo, hpath⟩
  | cons t ts ih =>
    cases ih h with
    | inr hwrite =>
      obtain ⟨m, hm, heq⟩ := hwrite
      exact Or.inr ⟨m, List.mem_cons_of_mem _ hm, heq⟩
    | inl hold =>
      obtain ⟨q, hq, hqrepo, hqpath⟩ := hold
      obtain rfl := Option.some.inj hq
      cases t with
      | write m =>
        exact Or.inr ⟨m, List.mem_cons_self, Option.some.inj hqrepo, Option.some.inj hqpath⟩
      | union =>
        cases o with
        | none => exact absurd hqrepo (by simp [ModuleMerge.apply, ModuleProps.union])
        | some q => exact Or.inl ⟨q, rfl, hqrepo, hqpath⟩
      | touch =>
        cases o with
        | none => exact absurd hqrepo (by simp [ModuleMerge.apply])
        | some q => exact Or.inl ⟨q, rfl, hqrepo, hqpath⟩

theorem isSome_runLetters {ts : List ModuleMerge} (h : ts ≠ []) (o : Option ModuleProps) :
    (runLetters (ModuleMerge.apply ps) ts o).isSome := by
  obtain ⟨init, last, rfl⟩ : ∃ init last, ts = init ++ [last] :=
    ⟨_, _, (List.dropLast_append_getLast h).symm⟩
  rw [runLetters, List.map_append, Replay.run_append]
  rfl

variable {repo version : String} {live : List String} {k : ModuleKey}

/-- Being stale is a matter of the repo and the path. -/
theorem isStaleModule_congr {o o' : Option ModuleProps} (hsome : o.isSome = o'.isSome)
    (hrepo : (o.getD {}).repo = (o'.getD {}).repo) (hpath : (o.getD {}).path = (o'.getD {}).path) :
    isStaleModule repo version live k o = isStaleModule repo version live k o' := by
  cases o <;> cases o' <;> simp_all [isStaleModule]

/-- What is stale after the letters was stale before them and is not written by them. -/
theorem isStaleModule_runLetters {ts : List ModuleMerge}
    (hlive : ∀ m, .write m ∈ ts → m.path ∈ live) (o : Option ModuleProps) :
    isStaleModule repo version live k (runLetters (ModuleMerge.apply ps) ts o) = true ↔
      isStaleModule repo version live k o = true ∧ ∀ m, .write m ∉ ts := by
  by_cases hw : ∃ m, ModuleMerge.write m ∈ ts
  · obtain ⟨m, hm⟩ := hw
    obtain ⟨p, path, hrun, hp, hpath⟩ := runLetters_of_write ps hlive hm o
    refine iff_of_false ?_ fun h => h.2 m hm
    rw [isStaleModule_iff, hrun]
    intro h
    obtain ⟨-, p', path', hl, -, hp', hno⟩ := h
    obtain rfl := Option.some.inj hl
    rw [hp] at hp'
    exact hno (Option.some.inj hp' ▸ hpath)
  · have hno : ∀ m, ModuleMerge.write m ∉ ts := fun m hm => hw ⟨m, hm⟩
    obtain ⟨hrepo, hpath⟩ := runLetters_of_no_write ps hno o
    rw [and_iff_left hno]
    cases o with
    | none =>
      refine iff_of_false ?_ (by simp [isStaleModule])
      intro h
      obtain ⟨-, p, path, hrun, hp, -⟩ := isStaleModule_iff.mp h
      simp [hrun, hp] at hrepo
    | some p =>
      have hsome : (runLetters (ModuleMerge.apply ps) ts (some p)).isSome = true := by
        by_cases hts : ts = []
        · subst hts
          rfl
        · exact isSome_runLetters ps hts _
      rw [isStaleModule_congr (by simp [hsome]) hrepo hpath]

end Letters

/-! ## The modules after the writes -/

section AfterWrites

variable {co : Checkout} {ps : List String} {written : List ModuleInfo}
  {ws : List (WriteStep Vec)}

theorem lookup_modules_writes (hplan : ∀ s ∈ ws, Planned co ps written s) (ix : Index Vec)
    (k : ModuleKey) :
    (WriteStep.execAll ws ix).graph.modules.lookup k =
      runLetters (ModuleMerge.apply ps) (lettersAt k (ws.flatMap WriteStep.moduleMerges))
        (ix.graph.modules.lookup k) := by
  rw [WriteStep.modules_execAll fun s hs => merges_of_planned (hplan s hs), lookup_mergeList]

theorem mem_letters_writes {k : ModuleKey} {t : ModuleMerge} :
    t ∈ lettersAt k (ws.flatMap WriteStep.moduleMerges) ↔ ∃ s ∈ ws, (k, t) ∈ s.moduleMerges := by
  rw [mem_lettersAt, List.mem_flatMap]

/-- A module is written by the plan exactly if it is one of its modules. -/
theorem write_mem_letters_iff (hplan : ∀ s ∈ ws, Planned co ps written s)
    (hown : ∀ info ∈ written, .writeResult ps (co.parseResult info) ∈ ws) {k : ModuleKey} :
    (∃ m, .write m ∈ lettersAt k (ws.flatMap WriteStep.moduleMerges)) ↔
      ∃ info ∈ written, info.key = k := by
  constructor
  · intro h
    obtain ⟨m, hm⟩ := h
    obtain ⟨s, hs, hks⟩ := mem_letters_writes.mp hm
    obtain ⟨hmw, hkey⟩ := written_of_planned (hplan s hs) hks
    exact ⟨m, hmw, hkey.symm⟩
  · intro h
    obtain ⟨info, hinfo, hkey⟩ := h
    exact ⟨info, mem_letters_writes.mpr ⟨_, hown info hinfo,
      mem_moduleMerges_parseResult.mpr (Or.inl ⟨hkey.symm, rfl⟩)⟩⟩

/-- The modules that are written are at live paths. -/
theorem path_of_mem_letters (hplan : ∀ s ∈ ws, Planned co ps written s) {live : List String}
    (hlive : ∀ info ∈ written, info.path ∈ live) {k : ModuleKey} {m : ModuleInfo}
    (hm : .write m ∈ lettersAt k (ws.flatMap WriteStep.moduleMerges)) : m.path ∈ live := by
  obtain ⟨s, hs, hks⟩ := mem_letters_writes.mp hm
  exact hlive m (written_of_planned (hplan s hs) hks).1

/-- **What is stale once everything is written**: what was stale and is not written. -/
theorem isStale_writes (hplan : ∀ s ∈ ws, Planned co ps written s)
    (hown : ∀ info ∈ written, .writeResult ps (co.parseResult info) ∈ ws) {live : List String}
    (hlive : ∀ info ∈ written, info.path ∈ live) (repo version : String) (ix : Index Vec)
    (k : ModuleKey) :
    (WriteStep.execAll ws ix).graph.isStale repo version live k = true ↔
      ix.graph.isStale repo version live k = true ∧ ∀ info ∈ written, info.key ≠ k := by
  unfold Graph.isStale
  rw [lookup_modules_writes hplan,
    isStaleModule_runLetters ps fun m hm => path_of_mem_letters hplan hlive hm]
  refine and_congr_right fun _ => ?_
  have hiff := write_mem_letters_iff hplan hown (k := k)
  constructor
  · exact fun h info hinfo hkey => (hiff.mpr ⟨info, hinfo, hkey⟩).elim h
  · exact fun h m hm => (hiff.mp ⟨m, hm⟩).elim fun info hinfo => h info hinfo.1 hinfo.2

/-- A module that no module of the run is called like keeps its repo. -/
theorem moduleRepo_writes (hplan : ∀ s ∈ ws, Planned co ps written s) {k : ModuleKey}
    (hk : ∀ info ∈ written, info.key ≠ k) (ix : Index Vec) :
    (WriteStep.execAll ws ix).graph.moduleRepo k = ix.graph.moduleRepo k := by
  have hno : ∀ m, .write m ∉ lettersAt k (ws.flatMap WriteStep.moduleMerges) := by
    intro m hm
    obtain ⟨s, hs, hks⟩ := mem_letters_writes.mp hm
    obtain ⟨hmw, hkey⟩ := written_of_planned (hplan s hs) hks
    exact hk m hmw hkey.symm
  have hbind : ∀ o : Option ModuleProps, o.bind (·.repo) = (o.getD {}).repo := by
    intro o
    cases o <;> rfl
  unfold Graph.moduleRepo
  rw [lookup_modules_writes hplan, hbind, hbind]
  exact (runLetters_of_no_write ps hno _).1

/-! ## `DEPENDS_ON` -/

theorem mem_dependsOn_exec (ps : List String) (st : CodeStmt) (g : Graph)
    (e : ModuleKey × ModuleKey) :
    e ∈ (CodeStmt.exec ps g st).dependsOn ↔
      e ∈ g.dependsOn ∨
        ∃ m dep, st = .mergeDependency m dep ∧ e = (m, ⟨dep, m.odooVersion⟩) := by
  cases st with
  | mergeDependency m dep => simp [CodeStmt.exec, or_comm]
  | inheritParent m parent order => simp only [CodeStmt.exec]; split <;> simp
  | delegateTo m delegated via => simp only [CodeStmt.exec]; split <;> simp
  | _ => simp [CodeStmt.exec]

theorem mem_dependsOn_writeParseResult (ps : List String) (r : ParseResult) (g : Graph)
    (e : ModuleKey × ModuleKey) :
    e ∈ (writeParseResult ps r g).dependsOn ↔
      e ∈ g.dependsOn ∨
        ∃ dep ∈ r.module.depends, e = (r.module.key, ⟨dep, r.module.odooVersion⟩) := by
  have hfold := foldl_iff (P := fun g : Graph => e ∈ g.dependsOn)
    (fun st (_ : st ∈ parseResultStmts r) g => mem_dependsOn_exec ps st g e) g
  refine hfold.trans (or_congr_right ?_)
  constructor
  · intro h
    obtain ⟨st, hst, m, dep, rfl, rfl⟩ := h
    rw [parseResultStmts, List.mem_append, List.mem_cons, List.mem_map] at hst
    rcases hst with (hst | ⟨dep', hdep, hst⟩) | hst
    · exact absurd hst (by simp)
    · obtain ⟨rfl, rfl⟩ := CodeStmt.mergeDependency.inj hst
      exact ⟨dep', hdep, rfl⟩
    · obtain ⟨m', -, hmem⟩ := List.mem_flatMap.mp hst
      simp [modelStmts, inheritStmts] at hmem
      grind
  · intro h
    obtain ⟨dep, hdep, rfl⟩ := h
    refine ⟨.mergeDependency r.module.key dep, ?_, _, _, rfl, rfl⟩
    rw [parseResultStmts]
    exact List.mem_append_left _ (List.mem_cons_of_mem _ (List.mem_map_of_mem hdep))

/-- The edges a run adds go out of the modules it writes. -/
theorem mem_dependsOn_writes (hplan : ∀ s ∈ ws, Planned co ps written s) {d c : ModuleKey}
    (hd : ∀ info ∈ written, info.key ≠ d) (ix : Index Vec) :
    (d, c) ∈ (WriteStep.execAll ws ix).graph.dependsOn ↔ (d, c) ∈ ix.graph.dependsOn := by
  have hstep : ∀ s ∈ ws, ∀ ix : Index Vec,
      (d, c) ∈ (WriteStep.exec ix s).graph.dependsOn ↔ (d, c) ∈ ix.graph.dependsOn ∨ False := by
    intro s hs ix
    rw [or_false]
    cases hplan s hs with
    | embed => rfl
    | @result info hinfo =>
      refine (mem_dependsOn_writeParseResult ps _ ix.graph (d, c)).trans (or_iff_left ?_)
      rintro ⟨dep, -, heq⟩
      exact hd info hinfo (Prod.mk.inj heq).1.symm
    | @view info =>
      have hxml : ∀ (g : Graph) (st : XmlStmt), (XmlStmt.exec ps g st).dependsOn = g.dependsOn := by
        intro g st
        cases st <;> rfl
      have heq : (WriteStep.exec ix (.writeView ps (co.viewResult info))).graph.dependsOn =
          ix.graph.dependsOn := foldl_eq_of_exec_eq Graph.dependsOn hxml _ ix.graph
      rw [heq]
    | @js info =>
      have hjs : ∀ (g : Graph) (st : JsStmt), (JsStmt.exec ps g st).dependsOn = g.dependsOn := by
        intro g st
        cases st with
        | patchComp p => simp only [JsStmt.exec]; split <;> rfl
        | _ => rfl
      have heq : (WriteStep.exec ix (.writeJs ps (co.jsResult info))).graph.dependsOn =
          ix.graph.dependsOn := foldl_eq_of_exec_eq Graph.dependsOn hjs _ ix.graph
      rw [heq]
    | @stylesheets batch =>
      have hsheet : ∀ (g : Graph) (sheet : StylesheetInfo),
          (writeStylesheet ps g sheet).dependsOn = g.dependsOn := by
        intro g sheet
        have himport : ∀ (g : Graph) (target : String),
            (importStylesheet sheet target g).dependsOn = g.dependsOn := fun _ _ => rfl
        exact foldl_eq_of_exec_eq Graph.dependsOn himport sheet.imports (mergeStylesheet ps sheet g)
      have heq : (WriteStep.exec ix (.writeStylesheets ps batch)).graph.dependsOn =
          ix.graph.dependsOn := foldl_eq_of_exec_eq Graph.dependsOn hsheet _ ix.graph
      rw [heq]
  have hfold := foldl_iff (P := fun ix : Index Vec => (d, c) ∈ ix.graph.dependsOn) hstep ix
  refine Iff.trans hfold ?_
  simp

end AfterWrites

/-! ## After garbage collection -/

section AfterGc

variable {repo version : String} {live : List String} {g : Graph}

theorem mem_dependsOn_gcStaleModules {d c : ModuleKey} :
    (d, c) ∈ (gcStaleModules repo version live g).dependsOn ↔
      (d, c) ∈ g.dependsOn ∧ g.isStale repo version live d = false ∧
        g.isStale repo version live c = false := by
  simp [gcStaleModules, Graph.detachModules]

theorem moduleRepo_gcStaleModules (k : ModuleKey) :
    (gcStaleModules repo version live g).moduleRepo k =
      if g.isStale repo version live k then none else g.moduleRepo k := by
  unfold Graph.moduleRepo
  rw [lookup_modules_gcStaleModules]
  unfold Graph.isStale
  split <;> rfl

/-- What is stale is a module of the repo. -/
theorem moduleRepo_of_isStale {k : ModuleKey} (h : g.isStale repo version live k = true) :
    g.moduleRepo k = some repo := by
  obtain ⟨-, p, path, hl, hrepo, -⟩ := isStaleModule_iff.mp h
  simp [Graph.moduleRepo, hl, hrepo]

end AfterGc

end OdooSemantic
