import OdooSemantic.Indexer.StubEmbeddings
import OdooSemantic.Lib.Folds
import OdooSemantic.Proof.EmbeddingReplacement

/-!
# What a run over the stubs does, and what is left for a second one

No row is lost, since what is deleted before a module is written are the rows of a module that has
none. A run that comes to an end has given rows to every module of the profile, but for those it has
failed at and those that have nothing to embed in the version of their repo (`Settled`), which is
what the audit shows afterwards (`reembed_closes_gaps`).

That the rows are counted ahead makes no difference to counting them one module at a time
(`repoTurn_eq_foldl`): a turn puts only rows of its own module into the table, and no name comes
twice. So a run is a list of visits, and what holds of it is what one visit keeps (`Visited`).
-/

namespace OdooSemantic

open KeyedStore EmbeddingChunk

variable {Vec : Type}

/-! ## Rows -/

theorem rowCount_pos_iff {t : EmbeddingTable Vec} {v module : String} :
    0 < rowCount t v module ↔ ∃ k ∈ t, k.module = module ∧ k.odooVersion = v := by
  unfold rowCount
  rw [List.countP_pos_iff]
  constructor
  · rintro ⟨k, hk, hown⟩
    exact ⟨k, AList.mem_keys.mp hk, of_decide_eq_true hown⟩
  · rintro ⟨k, hk, hown⟩
    exact ⟨k, AList.mem_keys.mpr hk, decide_eq_true hown⟩

theorem mem_foldl_insertRow {rows : List (EmbeddingChunk × Vec)} {t : EmbeddingTable Vec}
    {k : EmbeddingKey} : k ∈ rows.foldl insertRow t ↔ k ∈ t ∨ ∃ row ∈ rows, k = row.1.key := by
  induction rows generalizing t with
  | nil => simp
  | cons row rows ih =>
    rw [List.foldl_cons, ih, insertRow, mem_upsert]
    simp only [List.exists_mem_cons_iff]
    tauto

theorem nodup_profileModules (g : Graph) (v profileName : String) :
    (g.profileModules v profileName).Nodup := by
  unfold Graph.profileModules
  have hkeys : g.modules.entries.Pairwise fun a b => a.1 ≠ b.1 :=
    List.pairwise_map.mp g.modules.keys_nodup
  refine List.pairwise_map.mpr ((hkeys.filter _).imp_of_mem ?_)
  intro a b ha hb hne hname
  -- both are of version `v`, so with one name they would have one key
  have hversion : a.1.odooVersion = b.1.odooVersion := by
    have hva := (of_decide_eq_true (List.mem_filter.mp ha).2).1
    have hvb := (of_decide_eq_true (List.mem_filter.mp hb).2).1
    exact hva.trans hvb.symm
  refine hne ?_
  cases ha1 : a.1 with
  | mk name version =>
    cases hb1 : b.1 with
    | mk name' version' =>
      rw [ha1, hb1] at hname hversion
      exact congrArg₂ ModuleKey.mk hname hversion

section Write

variable {vec : String → Vec} {v name : String} {chunks : List EmbeddingChunk}
  {t : EmbeddingTable Vec} {k : EmbeddingKey}

/-- There is nothing to delete. -/
theorem mem_write_of_mem (hstub : ¬ 0 < rowCount t v name) (hk : k ∈ t) :
    k ∈ writeModuleEmbeddings (List.map vec) name v chunks t := by
  unfold writeModuleEmbeddings
  split
  · exact hk
  · refine mem_foldl_insertRow.mpr (Or.inl (mem_eraseWhere.mpr ⟨hk, ?_⟩))
    rw [decide_eq_false_iff_not]
    intro hown
    exact hstub (rowCount_pos_iff.mpr ⟨k, hk, hown⟩)

/-- What stays has a row. -/
theorem key_mem_write {c : EmbeddingChunk} (hc : Stays chunks c) :
    c.key ∈ writeModuleEmbeddings (List.map vec) name v chunks t := by
  unfold writeModuleEmbeddings
  split
  · rename_i hnil
    obtain ⟨front, back, hsplit, -⟩ := hc
    exact absurd (hnil.symm.trans hsplit) (by simp)
  · dsimp only
    rw [zip_eq_vectored]
    refine mem_foldl_insertRow.mpr (Or.inr ⟨(c, vec c.content), ?_, rfl⟩)
    exact List.mem_map_of_mem (mem_dedup_iff_stays.mpr hc)

/-- The rows of other modules are as they were. -/
theorem lookup_write_of_ne (hname : ∀ c ∈ chunks, c.module = name) (hk : k.module ≠ name) :
    (writeModuleEmbeddings (List.map vec) name v chunks t).lookup k = t.lookup k := by
  unfold writeModuleEmbeddings
  split
  · rfl
  · rw [lookup_foldl_insertRow_of_ne, lookup_eraseWhere]
    · simp [hk]
    · intro row hrow heq
      exact hk (heq ▸ hname row.1 (mem_dedup (List.of_mem_zip hrow).1))

end Write

/-! ## What there is to embed -/

namespace StubSources

variable {src : StubSources} {r : Repo} {name : String}

/-- Every module is under its name. -/
def KeyedByName (modules : Dict String ModuleInfo) : Prop :=
  ∀ n info, modules.get? n = some info → info.name = n

theorem KeyedByName.set {modules : Dict String ModuleInfo} (h : KeyedByName modules)
    (info : ModuleInfo) : KeyedByName (modules.set info.name info) := by
  intro n i hget
  rw [Dict.get?_set] at hget
  split at hget
  · rename_i heq
    rw [← Option.some.inj hget, heq]
  · exact h n i hget

theorem name_of_modulesMap {info : ModuleInfo} (h : (src.modulesMap r).get? name = some info) :
    info.name = name := by
  have hfiled := (wellFiled_buildRegistry r.localPath r.odooVersion (src.branch r.localPath)
    (src.manifests r.localPath)).name
  have hall : KeyedByName (src.modulesMap r) := by
    refine Folds.foldl_keeps ?_ fun n i hget => absurd hget (by simp [Dict.get?, Dict.empty])
    intro mmap hmmap modules hmodules
    refine Folds.foldl_keeps ?_ hmodules
    intro e he modules hmodules
    rw [← hfiled mmap.1 mmap.2 e.1 e.2 hmmap he]
    exact hmodules.set e.2
  exact hall name info h

theorem of_sourceOf {info : ModuleInfo} {m : ModuleSource} (h : src.sourceOf info = some m) :
    m.name = info.name ∧ m.odooVersion = info.odooVersion := by
  obtain ⟨m, -, rfl⟩ := Option.map_eq_some_iff.mp h
  exact ⟨rfl, rfl⟩

theorem module_of_mem_stubChunks {chunks : List EmbeddingChunk}
    (h : src.stubChunks r name = some chunks) {c : EmbeddingChunk} (hc : c ∈ chunks) :
    c.module = name := by
  unfold stubChunks at h
  split at h
  · rw [← Option.some.inj h] at hc
    exact absurd hc List.not_mem_nil
  · rename_i info hget
    obtain ⟨m, hm, rfl⟩ := Option.map_eq_some_iff.mp h
    calc c.module = m.name := ModuleSource.module_of_mem_chunksAs hc
      _ = info.name := (of_sourceOf hm).1
      _ = name := name_of_modulesMap hget

/-- The modules that the repos have are of the versions of their repos. -/
def Filed (src : StubSources) : Prop :=
  ∀ r ∈ src.repos, ∀ name info, (src.modulesMap r).get? name = some info →
    info.odooVersion = r.odooVersion

/-- The parsers come to an end, and leave nothing to embed in the version of the repo. -/
def NothingFor (src : StubSources) (r : Repo) (name : String) : Prop :=
  ∃ chunks, src.stubChunks r name = some chunks ∧ ∀ c, Stays chunks c → c.odooVersion ≠ r.odooVersion

/-- Of a version of its own, a module is embedded as it is when it is indexed. -/
theorem Filed.stubChunks_eq (h : src.Filed) (hr : r ∈ src.repos) {chunks : List EmbeddingChunk}
    (hchunks : src.stubChunks r name = some chunks) (hne : chunks ≠ []) :
    ∃ info m, (src.modulesMap r).get? name = some info ∧ src.sourceOf info = some m ∧
      m.name = name ∧ m.odooVersion = r.odooVersion ∧ chunks = m.makeChunks src.env := by
  unfold stubChunks at hchunks
  split at hchunks
  · exact absurd (Option.some.inj hchunks).symm hne
  · rename_i info hget
    obtain ⟨m, hm, rfl⟩ := Option.map_eq_some_iff.mp hchunks
    obtain ⟨hname, hversion⟩ := of_sourceOf hm
    rw [name_of_modulesMap hget] at hname
    rw [h r hr name info hget] at hversion
    refine ⟨info, m, hget, hm, hname, hversion, ?_⟩
    rw [← hversion]
    exact ModuleSource.chunksAs_self src.env m

theorem Filed.not_nothingFor (h : src.Filed) (hr : r ∈ src.repos) {chunks : List EmbeddingChunk}
    (hchunks : src.stubChunks r name = some chunks) (hne : chunks ≠ []) : ¬ src.NothingFor r name := by
  rintro ⟨chunks', hchunks', hnone⟩
  obtain rfl : chunks = chunks' := Option.some.inj (hchunks.symm.trans hchunks')
  obtain ⟨c, hc⟩ := exists_stays hne
  obtain ⟨info, m, -, -, -, hversion, rfl⟩ := h.stubChunks_eq hr hchunks hne
  refine hnone c hc ?_
  rw [← hversion]
  exact ModuleSource.version_of_mem_makeChunks (mem_of_stays hc)

/-! ## One visit -/

section Visit

variable {g : Graph} {profileName : String} {answers : StubAnswers Vec g profileName}
  {vec : String → Vec} {s s' : StubRun Vec}

/-- What a turn does to the table and to the log. -/
inductive Visited (src : StubSources) (vec : String → Vec) (r : Repo) (name : String)
    (s s' : StubRun Vec) : Prop where
  | skipped
      (why : 0 < rowCount s.table r.odooVersion name ∨ src.stubChunks r name = some [])
      (table : s'.table = s.table) (reembedded : s'.reembedded = s.reembedded)
      (failed : s'.failed = s.failed) (embedCalls : s'.totalEmbedCalls = s.totalEmbedCalls)
  | failed
      (stub : ¬ 0 < rowCount s.table r.odooVersion name)
      (nonempty : src.stubChunks r name ≠ some [])
      (table : s'.table = s.table) (reembedded : s'.reembedded = s.reembedded)
      (failed : s'.failed = s.failed ++ [(r.odooVersion, name)])
      (embedCalls : s'.totalEmbedCalls = s.totalEmbedCalls)
  | written (chunks : List EmbeddingChunk)
      (stub : ¬ 0 < rowCount s.table r.odooVersion name)
      (found : src.stubChunks r name = some chunks) (nonempty : chunks ≠ [])
      (table : s'.table =
        writeModuleEmbeddings (List.map vec) name r.odooVersion chunks s.table)
      (reembedded : s'.reembedded = s.reembedded ++ [(r.odooVersion, name)])
      (failed : s'.failed = s.failed)

/-- A turn for which the rows are counted when it comes. -/
def visit (src : StubSources) (answers : StubAnswers Vec g profileName) (s : StubRun Vec)
    (p : Repo × String) : StubRun Vec :=
  src.stubTurn answers p.1 (rowCount s.table p.1.odooVersion) s p.2

theorem visited_visit (hhonest : ∀ n, (answers.writer n).embedder.Honest vec) (r : Repo)
    (name : String) (s : StubRun Vec) : src.Visited vec r name s (src.visit answers s (r, name)) := by
  unfold visit stubTurn
  dsimp only
  split
  · rename_i hrows
    exact .skipped (Or.inl hrows) rfl rfl rfl rfl
  · rename_i hstub
    unfold embedStub
    split
    · rename_i hraised
      exact .failed hstub (by rw [hraised]; simp) rfl rfl rfl rfl
    · rename_i chunks hchunks
      split
      · rename_i hnil
        exact .skipped (Or.inr (hnil ▸ hchunks)) rfl rfl rfl rfl
      · rename_i hne
        split
        · rename_i embedCalls t hwrite
          refine .written chunks hstub hchunks hne ?_ rfl rfl
          exact EmbeddingWriter.table_of_returned (hhonest _) hwrite
        · rename_i error t hwrite
          refine .failed hstub ?_ (EmbeddingWriter.table_of_raised hwrite) rfl rfl rfl
          rw [hchunks]
          exact fun hnil => hne (Option.some.inj hnil)

namespace Visited

variable (h : src.Visited vec r name s s')

include h

theorem mem_table {k : EmbeddingKey} (hk : k ∈ s.table) : k ∈ s'.table := by
  cases h with
  | skipped _ table => exact table ▸ hk
  | failed _ _ table => exact table ▸ hk
  | written chunks stub _ _ table => exact table ▸ mem_write_of_mem stub hk

theorem lookup_of_ne {k : EmbeddingKey} (hk : k.module ≠ name) :
    s'.table.lookup k = s.table.lookup k := by
  cases h with
  | skipped _ table => rw [table]
  | failed _ _ table => rw [table]
  | written chunks _ found _ table =>
    rw [table]
    exact lookup_write_of_ne (fun c hc => module_of_mem_stubChunks found hc) hk

theorem rowCount_pos {v module : String} (hpos : 0 < rowCount s.table v module) :
    0 < rowCount s'.table v module := by
  obtain ⟨k, hk, hown⟩ := rowCount_pos_iff.mp hpos
  exact rowCount_pos_iff.mpr ⟨k, h.mem_table hk, hown⟩

theorem rowCount_pos_iff_of_ne {v module : String} (hne : module ≠ name) :
    0 < rowCount s'.table v module ↔ 0 < rowCount s.table v module := by
  refine ⟨fun hpos => ?_, h.rowCount_pos⟩
  obtain ⟨k, hk, hmodule, hversion⟩ := rowCount_pos_iff.mp hpos
  refine rowCount_pos_iff.mpr ⟨k, ?_, hmodule, hversion⟩
  rw [← AList.lookup_isSome, ← h.lookup_of_ne (by rw [hmodule]; exact hne)]
  exact AList.lookup_isSome.mpr hk

theorem mem_failed {p : String × String} (hp : p ∈ s.failed) : p ∈ s'.failed := by
  cases h with
  | skipped _ _ _ failed => exact failed ▸ hp
  | failed _ _ _ _ failed => exact failed ▸ List.mem_append_left _ hp
  | written _ _ _ _ _ _ failed => exact failed ▸ hp

end Visited

/-- The module needs no visit any more, or cannot do with one. -/
def Settled (src : StubSources) (s : StubRun Vec) (r : Repo) (name : String) : Prop :=
  0 < rowCount s.table r.odooVersion name ∨ (r.odooVersion, name) ∈ s.failed ∨
    src.NothingFor r name

theorem Visited.settled (h : src.Visited vec r name s s') : src.Settled s' r name := by
  cases h with
  | skipped why table =>
    cases why with
    | inl hrows => exact Or.inl (table ▸ hrows)
    | inr hnil =>
      refine Or.inr (Or.inr ⟨[], hnil, fun c hc => ?_⟩)
      exact absurd (mem_of_stays hc) List.not_mem_nil
  | failed _ _ _ _ failed => exact Or.inr (Or.inl (by rw [failed]; simp))
  | written chunks _ found _ table =>
    -- the stylesheets' chunks may be of another version, and are no rows of the module then
    by_cases hown : ∃ c, Stays chunks c ∧ c.odooVersion = r.odooVersion
    · obtain ⟨c, hc, hversion⟩ := hown
      refine Or.inl (rowCount_pos_iff.mpr ⟨c.key, table ▸ key_mem_write hc, ?_, hversion⟩)
      exact module_of_mem_stubChunks found (mem_of_stays hc)
    · refine Or.inr (Or.inr ⟨chunks, found, fun c hc hversion => ?_⟩)
      exact hown ⟨c, hc, hversion⟩

theorem Settled.visited {r' : Repo} {name' : String} (hs : src.Settled s r name)
    (h : src.Visited vec r' name' s s') : src.Settled s' r name := by
  rcases hs with hrows | hfailed | hnothing
  · exact Or.inl (h.rowCount_pos hrows)
  · exact Or.inr (Or.inl (h.mem_failed hfailed))
  · exact Or.inr (Or.inr hnothing)

end Visit

/-! ## A run is a list of visits -/

section Run

variable {g : Graph} {profileName : String} {answers : StubAnswers Vec g profileName}
  {vec : String → Vec} {s : StubRun Vec}

theorem stubTurn_congr {counts counts' : String → Nat}
    (h : 0 < counts name ↔ 0 < counts' name) :
    src.stubTurn answers r counts s name = src.stubTurn answers r counts' s name := by
  unfold stubTurn
  simp only [h]

/-- **Counting ahead is as good as counting at each module.** -/
theorem repoTurn_eq_foldl (hhonest : ∀ n, (answers.writer n).embedder.Honest vec) (r : Repo)
    (s : StubRun Vec) : src.repoTurn answers r s =
      ((answers.rows r).map fun name => (r, name)).foldl (src.visit answers) s := by
  have hnodup : (answers.rows r).Nodup := by
    refine (answers.rows_perm r).nodup_iff.mpr ?_
    exact nodup_profileModules g r.odooVersion profileName
  have hrows : ∀ (names : List String) (counts : String → Nat) (s : StubRun Vec), names.Nodup →
      (∀ name ∈ names, (0 < counts name ↔ 0 < rowCount s.table r.odooVersion name)) →
        names.foldl (src.stubTurn answers r counts) s =
          (names.map fun name => (r, name)).foldl (src.visit answers) s := by
    intro names counts
    induction names with
    | nil => exact fun s _ _ => rfl
    | cons name names ih =>
      intro s hnodup hcounts
      obtain ⟨hnew, hnodup⟩ := List.nodup_cons.mp hnodup
      rw [List.foldl_cons, List.map_cons, List.foldl_cons,
        stubTurn_congr (hcounts name List.mem_cons_self)]
      refine ih (src.visit answers s (r, name)) hnodup fun other hother => ?_
      have hne : other ≠ name := fun heq => hnew (heq ▸ hother)
      rw [(visited_visit hhonest r name s).rowCount_pos_iff_of_ne hne]
      exact hcounts other (List.mem_cons_of_mem _ hother)
  exact hrows _ _ s hnodup fun name _ => Iff.rfl

/-- What the repos that are there come to, up to a query that raises. -/
theorem exists_visits (src : StubSources)
    (hhonest : ∀ n, (answers.writer n).embedder.Honest vec) (repos : List Repo) (s : StubRun Vec) :
    ∃ visits : List (Repo × String),
      (src.reposLoop answers repos s).2 = visits.foldl (src.visit answers) s ∧
      (∀ p ∈ visits, p.1 ∈ repos ∧ src.isDir p.1.localPath = true ∧
        p.2 ∈ g.profileModules p.1.odooVersion profileName) ∧
      ((src.reposLoop answers repos s).1 = false → ∀ r ∈ repos, src.isDir r.localPath = true →
        ∀ name ∈ g.profileModules r.odooVersion profileName, (r, name) ∈ visits) := by
  induction repos generalizing s with
  | nil => exact ⟨[], rfl, by simp, by simp⟩
  | cons r repos ih =>
    rw [reposLoop]
    split
    · rename_i hdir
      obtain ⟨visits, hrun, hfrom, hall⟩ := ih s
      refine ⟨visits, hrun, fun p hp => ⟨List.mem_cons_of_mem _ (hfrom p hp).1, (hfrom p hp).2⟩, ?_⟩
      intro hended r' hr' hdir' name hname
      rcases List.mem_cons.mp hr' with rfl | hr'
      · exact absurd hdir' (by simpa using hdir)
      · exact hall hended r' hr' hdir' name hname
    · rename_i hdir
      split
      · exact ⟨[], rfl, by simp, fun hended => absurd hended (by simp)⟩
      · obtain ⟨visits, hrun, hfrom, hall⟩ := ih (src.repoTurn answers r s)
        refine ⟨(answers.rows r).map (fun name => (r, name)) ++ visits, ?_, ?_, ?_⟩
        · rw [hrun, repoTurn_eq_foldl hhonest, List.foldl_append]
        · intro p hp
          rcases List.mem_append.mp hp with hp | hp
          · obtain ⟨name, hname, rfl⟩ := List.mem_map.mp hp
            refine ⟨List.mem_cons_self, by simpa using hdir, ?_⟩
            exact (answers.rows_perm _).mem_iff.mp hname
          · exact ⟨List.mem_cons_of_mem _ (hfrom p hp).1, (hfrom p hp).2⟩
        · intro hended r' hr' hdir' name hname
          rcases List.mem_cons.mp hr' with rfl | hr'
          · refine List.mem_append_left _ (List.mem_map.mpr ⟨name, ?_, rfl⟩)
            exact (answers.rows_perm _).mem_iff.mpr hname
          · exact List.mem_append_right _ (hall hended r' hr' hdir' name hname)

/-- What every visit of a repo of the profile keeps, a run keeps. -/
theorem reembedStubs_keeps (hhonest : ∀ n, (answers.writer n).embedder.Honest vec)
    {P : StubRun Vec → Prop}
    (hstep : ∀ r ∈ src.repos, src.isDir r.localPath = true →
      ∀ name ∈ g.profileModules r.odooVersion profileName, ∀ s s',
        src.Visited vec r name s s' → P s → P s')
    {t : EmbeddingTable Vec} (hinit : P { table := t }) : P (src.reembedStubs answers t).2 := by
  unfold reembedStubs
  split
  · obtain ⟨visits, hrun, hfrom, -⟩ := exists_visits src hhonest src.repos { table := t }
    rw [hrun]
    refine Folds.foldl_keeps (fun p hp s hs => ?_) hinit
    obtain ⟨hr, hdir, hname⟩ := hfrom p hp
    exact hstep p.1 hr hdir p.2 hname s _ (visited_visit hhonest p.1 p.2 s) hs
  · exact hinit

/-- A run that comes to an end leaves no module that could do with a visit. -/
theorem settled_reembedStubs (hhonest : ∀ n, (answers.writer n).embedder.Honest vec)
    (hvector : src.vectorAvailable = true) {t : EmbeddingTable Vec}
    (hended : (src.reembedStubs answers t).1 = false) {r : Repo} (hr : r ∈ src.repos)
    (hdir : src.isDir r.localPath = true) {name : String}
    (hname : name ∈ g.profileModules r.odooVersion profileName) :
    src.Settled (src.reembedStubs answers t).2 r name := by
  unfold reembedStubs at hended ⊢
  rw [if_pos hvector] at hended ⊢
  obtain ⟨visits, hrun, -, hall⟩ := exists_visits src hhonest src.repos { table := t }
  rw [hrun]
  refine Folds.foldl_of_exists (P := fun s => src.Settled s r name) (Q := fun _ => True)
    (hall hended r hr hdir name hname) ?_ ?_ (fun _ _ _ _ => trivial) trivial
  · exact fun s _ => (visited_visit hhonest r name s).settled
  · exact fun p _ s hs => hs.visited (visited_visit hhonest p.1 p.2 s)

theorem mem_reembedStubs (hhonest : ∀ n, (answers.writer n).embedder.Honest vec)
    {t : EmbeddingTable Vec} {k : EmbeddingKey} (hk : k ∈ t) :
    k ∈ (src.reembedStubs answers t).2.table :=
  reembedStubs_keeps (P := fun s => k ∈ s.table) hhonest
    (fun _ _ _ _ _ _ _ hvisited hs => hvisited.mem_table hs) hk

end Run

end StubSources

/-! ## What the audit shows -/

theorem mem_auditRepoForProfile {g : Graph} {profileName : String} {repos : List Repo}
    {embedAvailable : Bool} {t : EmbeddingTable Vec} {line : ModuleAudit} :
    line ∈ auditRepoForProfile g profileName repos embedAvailable t ↔
      ∃ r ∈ repos, ∃ name ∈ g.profileModules r.odooVersion profileName,
        line = auditModule g embedAvailable t r.odooVersion name := by
  unfold auditRepoForProfile
  rw [List.mem_insertionSort, List.mem_flatMap]
  constructor
  · rintro ⟨v, hv, hline⟩
    obtain ⟨r, hr, rfl⟩ := List.mem_map.mp (List.mem_dedup.mp hv)
    obtain ⟨name, hname, rfl⟩ := List.mem_map.mp hline
    exact ⟨r, hr, name, hname, rfl⟩
  · rintro ⟨r, hr, name, hname, rfl⟩
    refine ⟨r.odooVersion, List.mem_dedup.mpr (List.mem_map_of_mem hr), ?_⟩
    exact List.mem_map_of_mem hname

section Results

variable {g : Graph} {profileName : String} {vec : String → Vec}

/-- **After a run that has come to an end, the audit shows a module without rows only if** the run
has failed at it, or no repo of its version that is there has anything of that version to embed under
its name. And every row that there was is still there. -/
theorem reembed_closes_gaps (src : StubSources) (answers : StubAnswers Vec g profileName)
    (hhonest : ∀ n, (answers.writer n).embedder.Honest vec) (hvector : src.vectorAvailable = true)
    (t : EmbeddingTable Vec) (hended : (src.reembedStubs answers t).1 = false) :
    let after := (src.reembedStubs answers t).2
    (∀ line ∈ auditRepoForProfile g profileName src.repos true after.table,
      line.embeddingCount = 0 →
        (line.odooVersion, line.module) ∈ after.failed ∨
          ∀ r ∈ src.repos, r.odooVersion = line.odooVersion → src.isDir r.localPath = true →
            src.NothingFor r line.module) ∧
      ∀ k ∈ t, k ∈ after.table := by
  refine ⟨fun line hline hzero => ?_, fun k hk => StubSources.mem_reembedStubs hhonest hk⟩
  obtain ⟨r₀, hr₀, name, hname, rfl⟩ := mem_auditRepoForProfile.mp hline
  by_cases hfailed : (r₀.odooVersion, name) ∈ (src.reembedStubs answers t).2.failed
  · exact Or.inl hfailed
  · refine Or.inr fun r hr hversion hdir => ?_
    replace hversion : r.odooVersion = r₀.odooVersion := hversion
    rw [← hversion] at hname hfailed
    rcases StubSources.settled_reembedStubs hhonest hvector hended hr hdir hname with
      hrows | hin | hnothing
    · refine absurd hrows ?_
      rw [hversion]
      exact Nat.not_lt.mpr (Nat.le_of_eq hzero)
    · exact absurd hin hfailed
    · exact hnothing

/-- All that there is to embed is of another version. -/
def FiledElsewhere (src : StubSources) (v name : String) : Prop :=
  ∃ r ∈ src.repos, r.odooVersion = v ∧ src.stubChunks r name ≠ some [] ∧ src.NothingFor r name

theorem StubSources.Filed.not_filedElsewhere {src : StubSources} (h : src.Filed) (v name : String) :
    ¬ FiledElsewhere src v name := by
  rintro ⟨r, hr, -, hne, hnothing⟩
  obtain ⟨chunks, hchunks, -⟩ := id hnothing
  refine h.not_nothingFor hr hchunks (fun hnil => hne ?_) hnothing
  rw [hchunks, hnil]

/-- What a second run keeps, after a first one. -/
structure TriesAgain (src : StubSources) (after s : StubRun Vec) : Prop where
  table : ∀ k ∈ after.table, k ∈ s.table
  tried : ∀ p ∈ s.reembedded ++ s.failed, p ∈ after.failed ∨ FiledElsewhere src p.1 p.2
  idle : s.reembedded = [] → s.table = after.table ∧ s.totalEmbedCalls = 0

namespace TriesAgain

variable {src : StubSources} {r : Repo} {name : String} {after s s' : StubRun Vec}

/-- What is still without rows has failed before, unless it cannot get rows. -/
theorem tried_of_stub (h : TriesAgain src after s) (hr : r ∈ src.repos)
    (hsettled : src.Settled after r name) (hstub : ¬ 0 < rowCount s.table r.odooVersion name)
    (hne : src.stubChunks r name ≠ some []) :
    (r.odooVersion, name) ∈ after.failed ∨ FiledElsewhere src r.odooVersion name := by
  rcases hsettled with hrows | hfailed | hnothing
  · obtain ⟨k, hk, hown⟩ := rowCount_pos_iff.mp hrows
    exact absurd (rowCount_pos_iff.mpr ⟨k, h.table k hk, hown⟩) hstub
  · exact Or.inl hfailed
  · exact Or.inr ⟨r, hr, rfl, hne, hnothing⟩

theorem visited (h : TriesAgain src after s) (hr : r ∈ src.repos)
    (hsettled : src.Settled after r name) (hvisited : src.Visited vec r name s s') :
    TriesAgain src after s' := by
  have htable : ∀ k ∈ after.table, k ∈ s'.table := fun k hk => hvisited.mem_table (h.table k hk)
  obtain ⟨hbefore, hfailed⟩ := List.forall_mem_append.mp h.tried
  cases hvisited with
  | skipped _ table reembedded failed embedCalls =>
    refine ⟨htable, ?_, ?_⟩
    · rw [reembedded, failed]
      exact h.tried
    · rw [reembedded, table, embedCalls]
      exact h.idle
  | failed stub nonempty table reembedded failed embedCalls =>
    refine ⟨htable, ?_, ?_⟩
    · rw [reembedded, failed]
      refine List.forall_mem_append.mpr ⟨hbefore, List.forall_mem_append.mpr ⟨hfailed, ?_⟩⟩
      intro p hp
      obtain rfl := List.mem_singleton.mp hp
      exact h.tried_of_stub hr hsettled stub nonempty
    · rw [reembedded, table, embedCalls]
      exact h.idle
  | written chunks stub found nonempty table reembedded failed =>
    have hne : src.stubChunks r name ≠ some [] := fun hnil =>
      nonempty (Option.some.inj (found.symm.trans hnil))
    refine ⟨htable, ?_, fun hnil => absurd hnil (by simp [reembedded])⟩
    rw [reembedded, failed]
    refine List.forall_mem_append.mpr ⟨List.forall_mem_append.mpr ⟨hbefore, ?_⟩, hfailed⟩
    intro p hp
    obtain rfl := List.mem_singleton.mp hp
    exact h.tried_of_stub hr hsettled stub hne

end TriesAgain

/-- **A second run tries nothing but what the first one has failed at**, whatever happens to it, and
modules of which all that there is to embed is of another version than their repo. Without either it
embeds nothing and changes nothing. -/
theorem reembed_again (src : StubSources) (first second : StubAnswers Vec g profileName)
    (hfirst : ∀ n, (first.writer n).embedder.Honest vec)
    (hsecond : ∀ n, (second.writer n).embedder.Honest vec) (t : EmbeddingTable Vec)
    (hended : (src.reembedStubs first t).1 = false) :
    let after := (src.reembedStubs first t).2
    let again := (src.reembedStubs second after.table).2
    (∀ p ∈ again.reembedded ++ again.failed, p ∈ after.failed ∨ FiledElsewhere src p.1 p.2) ∧
      (after.failed = [] → src.Filed → again.table = after.table ∧ again.totalEmbedCalls = 0) := by
  intro after again
  have hagain : TriesAgain src after again := by
    have hinit : TriesAgain src after { table := after.table } :=
      ⟨fun k hk => hk, by simp, fun _ => ⟨rfl, rfl⟩⟩
    cases hvector : src.vectorAvailable with
    | false =>
      have hidle : again = { table := after.table } := by
        show (src.reembedStubs second after.table).2 = _
        rw [StubSources.reembedStubs, hvector]
        rfl
      rw [hidle]
      exact hinit
    | true =>
      refine StubSources.reembedStubs_keeps hsecond ?_ hinit
      intro r hr hdir name hname s s' hvisited hs
      have hsettled : src.Settled after r name :=
        StubSources.settled_reembedStubs hfirst hvector hended hr hdir hname
      exact hs.visited hr hsettled hvisited
  refine ⟨hagain.tried, fun hnone hfiled => hagain.idle ?_⟩
  refine List.eq_nil_iff_forall_not_mem.mpr fun p hp => ?_
  rcases hagain.tried p (List.mem_append_left _ hp) with hin | helsewhere
  · rw [hnone] at hin
    exact absurd hin List.not_mem_nil
  · exact absurd helsewhere (hfiled.not_filedElsewhere p.1 p.2)

/-- The rows of a module are its chunks, each with its vector. -/
def RowsOf (vec : String → Vec) (chunks : List EmbeddingChunk) (v name : String)
    (t : EmbeddingTable Vec) : Prop :=
  ∀ k row, (k.module = name ∧ k.odooVersion = v) ∧ t.lookup k = some row ↔
    ∃ c, Stays chunks c ∧ k = c.key ∧ row = c.row (vec c.content)

/-- The module of a name in one of the repos, as it is indexed. -/
def StubSources.Indexes (src : StubSources) (v name : String) (m : ModuleSource) : Prop :=
  ∃ r ∈ src.repos, r.odooVersion = v ∧ ∃ info,
    (src.modulesMap r).get? name = some info ∧ src.sourceOf info = some m

/-- What a run keeps that has started on `t`. -/
structure AsIndexed (src : StubSources) (vec : String → Vec) (t : EmbeddingTable Vec)
    (s : StubRun Vec) : Prop where
  others : ∀ k, (k.odooVersion, k.module) ∉ s.reembedded → s.table.lookup k = t.lookup k
  stubs : ∀ p ∈ s.reembedded, ∀ k ∈ t, ¬ (k.module = p.2 ∧ k.odooVersion = p.1)
  rows : ∀ p ∈ s.reembedded, ∃ m, src.Indexes p.1 p.2 m ∧ m.makeChunks src.env ≠ [] ∧
    RowsOf vec (m.makeChunks src.env) p.1 p.2 s.table

namespace AsIndexed

variable {src : StubSources} {r : Repo} {name : String} {t : EmbeddingTable Vec}
  {s s' : StubRun Vec}

theorem of_eq (h : AsIndexed src vec t s) (table : s'.table = s.table)
    (reembedded : s'.reembedded = s.reembedded) : AsIndexed src vec t s' where
  others := by
    rw [reembedded, table]
    exact h.others
  stubs := by
    rw [reembedded]
    exact h.stubs
  rows := by
    rw [reembedded, table]
    exact h.rows

theorem visited (h : AsIndexed src vec t s) (hfiled : src.Filed) (hr : r ∈ src.repos)
    (hvisited : src.Visited vec r name s s') : AsIndexed src vec t s' := by
  cases hvisited with
  | skipped _ table reembedded => exact h.of_eq table reembedded
  | failed _ _ table reembedded => exact h.of_eq table reembedded
  | written chunks stub found nonempty table reembedded =>
    obtain ⟨info, m, hget, hm, hname, hversion, rfl⟩ := hfiled.stubChunks_eq hr found nonempty
    have hown : ∀ c, Stays (m.makeChunks src.env) c → c.module = name ∧
        c.odooVersion = r.odooVersion := fun c hc =>
      ⟨StubSources.module_of_mem_stubChunks found (mem_of_stays hc),
        (ModuleSource.version_of_mem_makeChunks (mem_of_stays hc)).trans hversion⟩
    obtain ⟨hrows, hframe⟩ : Replaced vec name r.odooVersion (m.makeChunks src.env) s.table
        s'.table := by
      rw [table]
      exact replaced_of_own (fun hnil => absurd hnil nonempty) hown
    -- what the run has re-embedded before has rows, and no turn embeds what has rows
    have hnew : (r.odooVersion, name) ∉ s.reembedded := by
      intro hin
      obtain ⟨m', -, hne, hrows'⟩ := h.rows _ hin
      obtain ⟨c, hc⟩ := exists_stays hne
      obtain ⟨hself, hrow⟩ := (hrows' c.key _).mpr ⟨c, hc, rfl, rfl⟩
      refine stub (rowCount_pos_iff.mpr ⟨c.key, ?_, hself⟩)
      exact AList.lookup_isSome.mp (by rw [hrow]; rfl)
    refine ⟨?_, ?_, ?_⟩
    · intro k hk
      rw [reembedded, List.mem_append, not_or, List.mem_singleton, Prod.mk.injEq] at hk
      rw [hframe k fun hself => hk.2 ⟨hself.2, hself.1⟩]
      exact h.others k hk.1
    · rw [reembedded]
      refine List.forall_mem_append.mpr ⟨h.stubs, ?_⟩
      intro p hp k hk hself
      obtain rfl := List.mem_singleton.mp hp
      refine stub (rowCount_pos_iff.mpr ⟨k, ?_, hself⟩)
      rw [← AList.lookup_isSome, h.others k (by rw [hself.1, hself.2]; exact hnew)]
      exact AList.lookup_isSome.mpr hk
    · rw [reembedded]
      refine List.forall_mem_append.mpr ⟨?_, ?_⟩
      · intro p hp
        obtain ⟨m', hm', hne, hrows'⟩ := h.rows p hp
        refine ⟨m', hm', hne, fun k row => ?_⟩
        rw [← hrows' k row]
        refine and_congr_right fun hself => ?_
        rw [hframe k ?_]
        rintro ⟨hmodule, hv⟩
        refine hnew ?_
        rw [← hmodule, ← hv, hself.1, hself.2]
        exact hp
      · intro p hp
        obtain rfl := List.mem_singleton.mp hp
        exact ⟨m, ⟨r, hr, rfl, info, hget, hm⟩, nonempty, hrows⟩

end AsIndexed

/-- **What is embedded is what indexing embeds**: if the modules are of the versions of their repos,
the modules that the run names as re-embedded had no rows, have the rows of their chunks now, and no
other row has changed. -/
theorem reembed_as_indexed (src : StubSources) (answers : StubAnswers Vec g profileName)
    (hhonest : ∀ n, (answers.writer n).embedder.Honest vec) (hfiled : src.Filed)
    (t : EmbeddingTable Vec) : AsIndexed src vec t (src.reembedStubs answers t).2 := by
  refine StubSources.reembedStubs_keeps hhonest ?_ ⟨fun _ _ => rfl, by simp, by simp⟩
  intro r hr _ name _ s s' hvisited hs
  exact hs.visited hfiled hr hvisited

end Results

namespace AcmeStubs

/-- `sale` is in the graph and has no rows, `stock` has one. -/
def graph : Graph where
  modules := ((∅ : Store ModuleKey ModuleProps).insert ⟨"sale", "17.0"⟩
    { profile := some ["acme_17"] }).insert ⟨"stock", "17.0"⟩ { profile := some ["acme_17"] }

def repo : Repo := ⟨1, "/src/acme", "17.0"⟩

def sources : StubSources where
  repos := [repo]
  manifests _ := [{ dir := ["sale"], manifest := some { version := "17.0.1.0.0" } }]
  env := { isAlnum := Char.isAlphanum, capitalize := id, parseCss := fun _ => none,
           parseJs := fun _ => .mk "program" 0 0 [] }
  source info := some { name := info.name, odooVersion := info.odooVersion, path := info.path,
                        models := [{ name := "sale.order", methods := [{ name := "action_confirm" }] }] }

def answers : StubAnswers Unit graph "acme_17" where
  rows r := graph.profileModules r.odooVersion "acme_17"
  rows_perm _ := List.Perm.refl _
  writer _ :=
    { embedder := { post := fun _ texts => .embeddings (texts.map fun _ => ()), normalize := id }
      refuses := fun _ _ => false }

def table : EmbeddingTable Unit :=
  (∅ : EmbeddingTable Unit).insert
    ⟨"field", "stock", "17.0", "stock.move.state", "/src/acme/stock", 0⟩
    ⟨some "stock.move", "[stock] stock.move: state (selection)", ()⟩

theorem honest (n : Nat) : (answers.writer n).embedder.Honest fun _ => () := by
  intro sent texts vecs hpost
  obtain rfl := EmbedReply.embeddings.inj hpost
  exact List.map_id _

theorem filed : sources.Filed := by
  intro r hr name info hget
  obtain rfl := List.mem_singleton.mp hr
  have hversions : (sources.modulesMap repo).items.map (fun i => i.2.odooVersion) = ["17.0"] := by
    decide
  have hmem : info.odooVersion ∈ (sources.modulesMap repo).items.map fun i => i.2.odooVersion :=
    List.mem_map.mpr ⟨(name, info), Dict.mem_items_of_get? hget, rfl⟩
  rw [hversions] at hmem
  exact List.mem_singleton.mp hmem

theorem reembed_closes_gaps_acme :
    let after := (sources.reembedStubs answers table).2
    (∀ line ∈ auditRepoForProfile graph "acme_17" sources.repos true after.table,
      line.embeddingCount = 0 →
        (line.odooVersion, line.module) ∈ after.failed ∨
          ∀ r ∈ sources.repos, r.odooVersion = line.odooVersion → sources.isDir r.localPath = true →
            sources.NothingFor r line.module) ∧
      ∀ k ∈ table, k ∈ after.table :=
  reembed_closes_gaps sources answers honest rfl table rfl

theorem reembed_again_acme :
    let after := (sources.reembedStubs answers table).2
    let again := (sources.reembedStubs answers after.table).2
    (∀ p ∈ again.reembedded ++ again.failed, p ∈ after.failed ∨ FiledElsewhere sources p.1 p.2) ∧
      (after.failed = [] → sources.Filed →
        again.table = after.table ∧ again.totalEmbedCalls = 0) :=
  reembed_again sources answers answers honest honest table rfl

theorem reembed_as_indexed_acme :
    AsIndexed sources (fun _ => ()) table (sources.reembedStubs answers table).2 :=
  reembed_as_indexed sources answers honest filed table

end AcmeStubs

end OdooSemantic
