import OdooSemantic.Indexer.WholeArrays
import OdooSemantic.Manager.Commands
import OdooSemantic.Web.RepoRoutes

/-!
# Deleting a repo, end to end

What a deletion has to get right is a statement about data and where it came from: what only
the deleted repos had brought is gone, what another repo had brought is as it was, the two
front ends leave the same, and a store that fails is not passed over in silence.

The command line touches neither store. So the two front ends leave the same only where the
route finds nothing to delete, and the stores are clean only where there was nothing to clean:
`deletion_law_iff` says that the law holds of the repos that have left no trace, and of no
others.
-/

namespace OdooSemantic

open KeyedStore

variable {Vec : Type}

/-! ## Data, and where it came from -/

inductive Datum where
  | module (k : ModuleKey)
  | entity (e : EntityNode)
  | embedding (k : EmbeddingKey)

def Present (ix : Index Vec) : Datum → Prop
  | .module k => k ∈ ix.graph.modules
  | .entity e => ix.graph.Has e
  | .embedding k => k ∈ ix.embeddings

/-- The same in both stores, with all its properties, or in neither. -/
def SameDatum (a b : Index Vec) : Datum → Prop
  | .module k => b.graph.modules.lookup k = a.graph.modules.lookup k
  | .entity e => SameNode a.graph b.graph e
  | .embedding k => b.embeddings.lookup k = a.embeddings.lookup k

theorem SameDatum.refl (ix : Index Vec) (d : Datum) : SameDatum ix ix d := by
  cases d with
  | entity e => exact SameNode.refl ix.graph e
  | _ => rfl

/-- The node as the writers address it. -/
def EntityNode.node : EntityNode → ProfileNode
  | model k => .ref (.model k)
  | field k => .ref (.field k)
  | method k => .ref (.method k)
  | view n => .ref (.view n.xmlid n.odooVersion)
  | qweb n => .ref (.qweb n.xmlid n.odooVersion)
  | patch k => .ref (.patch k)
  | comp k => .ref (.comp k)
  | stylesheet k => .stylesheet k

/-- The transaction writes the datum. -/
def WriteStep.Writes (s : WriteStep Vec) : Datum → Prop
  | .module k => ∃ st ∈ s.stmts, .ref (.module k) ∈ st.merges
  | .entity e => ∃ st ∈ s.stmts, e.node ∈ st.merges ∨ e.node ∈ st.references
  | .embedding k => match s with
      | .embed _ _ _ chunks => ∃ c ∈ chunks, c.key = k
      | _ => False

/-- What has been written so far, and in the run of which repo. -/
abbrev History (Vec : Type) := List (Nat × WriteStep Vec)

/-- The stores after a history. -/
def History.index (hist : History Vec) : Index Vec := WriteStep.execAll (hist.map Prod.snd) {}

def CameFrom (hist : History Vec) (d : Datum) (repoId : Nat) : Prop :=
  ∃ s, (repoId, s) ∈ hist ∧ s.Writes d

/-- The datum came from some of these repos and from no other. -/
def OnlyFrom (hist : History Vec) (d : Datum) (repoIds : List Nat) : Prop :=
  (∃ r ∈ repoIds, CameFrom hist d r) ∧ ∀ r, CameFrom hist d r → r ∈ repoIds

/-! ## The two front ends -/

/-- A repo by its id, a profile by its name. -/
inductive DeleteTarget where
  | repo (repoId : Nat)
  | profile (name : String)

/-- The repos that go. -/
def DeleteTarget.repoIds (db : Db) : DeleteTarget → List Nat
  | repo repoId => [repoId]
  | profile name => match db.profileNamed name with
      | some (profileId, _) => db.repoIdsOf profileId
      | none => []

/-- `repo_cleanup_pairs` -/
def DeleteTarget.pairs (db : Db) : DeleteTarget → List RepoPair
  | repo repoId => match db.getRepoById repoId with
      | some r => [⟨PosixPath.name r.localPath, r.odooVersion⟩]
      | none => []
  | profile name => (db.getReposForProfile name).map fun r =>
      ⟨PosixPath.name r.localPath, r.odooVersion⟩

def webDelete (running : String → Bool) (answers : StoreAnswers) (w : World Vec) :
    DeleteTarget → Deletion Vec
  | .repo repoId => deleteRepoRoute running answers repoId w
  | .profile name => match w.db.profileNamed name with
      | some (profileId, _) => deleteProfileRoute running answers profileId w
      | none => ⟨w, .notFound, []⟩

def cliDelete (confirmed : Bool) (w : World Vec) : DeleteTarget → World Vec × CommandResult
  | .repo repoId => cmdDeleteRepo (.id repoId) confirmed w
  | .profile name => cmdDeleteProfile name confirmed w

/-- **What is promised** of a deletion that both front ends report as done. -/
structure DeletionLaw (hist : History Vec) (db : Db) (running : String → Bool)
    (answers : StoreAnswers) (target : DeleteTarget) : Prop where
  webComplete : ∀ d, Present (webDelete running answers ⟨hist.index, db⟩ target).world.index d →
    ¬ OnlyFrom hist d (target.repoIds db)
  cliComplete : ∀ d, Present (cliDelete true ⟨hist.index, db⟩ target).1.index d →
    ¬ OnlyFrom hist d (target.repoIds db)
  webFramed : ∀ d r, r ∈ db.repos → r ∉ target.repoIds db → CameFrom hist d r →
    SameDatum hist.index (webDelete running answers ⟨hist.index, db⟩ target).world.index d
  cliFramed : ∀ d r, r ∈ db.repos → r ∉ target.repoIds db → CameFrom hist d r →
    SameDatum hist.index (cliDelete true ⟨hist.index, db⟩ target).1.index d
  sameDb : (webDelete running answers ⟨hist.index, db⟩ target).world.db =
    (cliDelete true ⟨hist.index, db⟩ target).1.db
  sameIndex : ∀ d, SameDatum (cliDelete true ⟨hist.index, db⟩ target).1.index
    (webDelete running answers ⟨hist.index, db⟩ target).world.index d
  /-- A cleanup step that fails is told, and a later request can complete the deletion. -/
  told : (webDelete running answers ⟨hist.index, db⟩ target).warnings ≠ [] →
    (webDelete running answers ⟨hist.index, db⟩ target).response.ok = false ∧
      ∃ answers', (webDelete running answers'
        (webDelete running answers ⟨hist.index, db⟩ target).world target).response.ok = true

/-! ## The cleanup -/

/-- Both queries of every pair are answered by the graph. -/
def StoreAnswers.GraphAnswers (answers : StoreAnswers) (pairs : List RepoPair) : Prop :=
  ∀ p ∈ pairs.zipIdx, answers.configured = true ∧ answers.collectRaises p.2 = false ∧
    answers.deleteRaises p.2 = none

/-- No module node carries the basename and the version of a pair. -/
def Graph.NoModules (g : Graph) (pairs : List RepoPair) : Prop :=
  ∀ pair ∈ pairs, ∀ k, g.inRepo pair.basename pair.version k = false

theorem Graph.NoModules.moduleNames {g : Graph} {pairs : List RepoPair} (h : g.NoModules pairs)
    {pair : RepoPair} (hp : pair ∈ pairs) : g.moduleNames pair.basename pair.version = [] := by
  rw [List.eq_nil_iff_forall_not_mem]
  intro name hname
  have hin := mem_moduleNames_iff (k := ⟨name, pair.version⟩).mp ⟨hname, rfl⟩
  rw [h pair hp] at hin
  exact absurd hin (by simp)

/-- A log that every turn of a loop appends to. -/
theorem foldl_log {S A W : Type} (log : S → List W) (new : A → List W) {f : S → A → S}
    (h : ∀ s a, log (f s a) = log s ++ new a) (as : List A) (s : S) :
    log (as.foldl f s) = log s ++ as.flatMap new := by
  induction as generalizing s with
  | nil => simp
  | cons a as ih => rw [List.foldl_cons, ih, h, List.flatMap_cons, List.append_assoc]

section Helpers

variable {answers : StoreAnswers} {pairs : List RepoPair} {g : Graph}

/-- What a turn of the first loop logs. -/
def collectLog (answers : StoreAnswers) (p : RepoPair × Nat) : List CleanupWarning :=
  if !answers.configured then [.neo4jUnavailable p.1]
  else if answers.collectRaises p.2 then [.collectFailed p.1] else []

/-- What a turn of the second loop logs. -/
def deleteLog (answers : StoreAnswers) (p : RepoPair × Nat) : List CleanupWarning :=
  if answers.configured && (answers.deleteRaises p.2).isSome then [.neo4jFailed p.1] else []

theorem warnings_collect :
    (collectModuleNamesForRepos answers g pairs).2 = pairs.zipIdx.flatMap (collectLog answers) := by
  unfold collectModuleNamesForRepos
  rw [foldl_log Prod.snd (collectLog answers), List.nil_append]
  intro s p
  unfold collectPair collectLog
  cases answers.configured <;> cases answers.collectRaises p.2 <;> simp

theorem warnings_delete :
    (deleteNeo4jForRepos answers pairs g).2.2 = pairs.zipIdx.flatMap (deleteLog answers) := by
  unfold deleteNeo4jForRepos
  rw [foldl_log (fun s : Graph × DeletedCounts × List CleanupWarning => s.2.2) (deleteLog answers),
    List.nil_append]
  intro s p
  unfold deletePair deleteLog
  cases answers.configured <;> cases answers.deleteRaises p.2 <;> simp

/-- **Silence means that the graph answered.** -/
theorem graphAnswers_iff : answers.GraphAnswers pairs ↔
    (collectModuleNamesForRepos answers g pairs).2 = [] ∧
      (deleteNeo4jForRepos answers pairs g).2.2 = [] := by
  have hturn : ∀ p : RepoPair × Nat, collectLog answers p = [] ∧ deleteLog answers p = [] ↔
      answers.configured = true ∧ answers.collectRaises p.2 = false ∧
        answers.deleteRaises p.2 = none := by
    intro p
    unfold collectLog deleteLog
    cases answers.configured <;> cases answers.collectRaises p.2 <;>
      cases answers.deleteRaises p.2 <;> simp
  rw [warnings_collect, warnings_delete, List.flatMap_eq_nil_iff, List.flatMap_eq_nil_iff]
  constructor
  · intro h
    exact ⟨fun p hp => ((hturn p).mpr (h p hp)).1, fun p hp => ((hturn p).mpr (h p hp)).2⟩
  · intro h p hp
    exact (hturn p).mp ⟨h.1 p hp, h.2 p hp⟩

/-- Answered deletions are one `delete_modules_scoped` after the other. -/
theorem graph_deleteNeo4jForRepos (h : answers.GraphAnswers pairs) :
    (deleteNeo4jForRepos answers pairs g).1 =
      pairs.foldl (fun g pair => (deleteModulesScoped pair.basename pair.version g).1) g := by
  have hloop : ∀ (ps : List (RepoPair × Nat)) (s : Graph × DeletedCounts × List CleanupWarning),
      (∀ p ∈ ps, answers.configured = true ∧ answers.collectRaises p.2 = false ∧
        answers.deleteRaises p.2 = none) →
      (ps.foldl (deletePair answers) s).1 = (ps.map Prod.fst).foldl
        (fun g pair => (deleteModulesScoped pair.basename pair.version g).1) s.1 := by
    intro ps
    induction ps with
    | nil => exact fun _ _ => rfl
    | cons p ps ih =>
      intro s hs
      obtain ⟨hconf, -, hdel⟩ := hs p List.mem_cons_self
      rw [List.foldl_cons, ih _ fun q hq => hs q (List.mem_cons_of_mem _ hq), List.map_cons,
        List.foldl_cons]
      simp [deletePair, hconf, hdel]
  unfold deleteNeo4jForRepos
  rw [hloop _ _ h, List.zipIdx_map_fst]

/-- The modules of the pairs are gone after them. -/
theorem lookup_modules_foldl_delete (pairs : List RepoPair) (g : Graph) {pair : RepoPair}
    (hp : pair ∈ pairs) {k : ModuleKey} (hk : g.inRepo pair.basename pair.version k = true) :
    (pairs.foldl (fun g pair => (deleteModulesScoped pair.basename pair.version g).1)
      g).modules.lookup k = none := by
  have hstay : ∀ (pairs : List RepoPair) (g : Graph), g.modules.lookup k = none →
      (pairs.foldl (fun g pair => (deleteModulesScoped pair.basename pair.version g).1)
        g).modules.lookup k = none := by
    intro pairs
    induction pairs with
    | nil => exact fun g hg => hg
    | cons q pairs ih =>
      intro g hg
      refine ih _ ?_
      rw [lookup_modules_deleteModulesScoped, hg]
      exact ite_self _
  induction pairs generalizing g with
  | nil => exact absurd hp (by simp)
  | cons q pairs ih =>
    rw [List.foldl_cons]
    by_cases hq : g.inRepo q.basename q.version k = true
    · refine hstay pairs _ ?_
      rw [lookup_modules_deleteModulesScoped, if_pos hq]
    · cases List.mem_cons.mp hp with
      | inl heq => exact absurd (heq ▸ hk) hq
      | inr hmem =>
        refine ih _ hmem ?_
        rw [inRepo_iff, lookup_modules_deleteModulesScoped, if_neg hq]
        exact inRepo_iff.mp hk

/-- Where no pair has a module, the graph stays as it is. -/
theorem foldl_delete_of_noModules (h : g.NoModules pairs) :
    pairs.foldl (fun g pair => (deleteModulesScoped pair.basename pair.version g).1) g = g := by
  induction pairs with
  | nil => rfl
  | cons pair pairs ih =>
    have hfirst : (deleteModulesScoped pair.basename pair.version g).1 = g := by
      unfold deleteModulesScoped
      rw [if_pos (h.moduleNames List.mem_cons_self)]
    rw [List.foldl_cons, hfirst]
    exact ih fun p hp => h p (List.mem_cons_of_mem _ hp)

/-- … and no names are collected. -/
theorem collect_of_noModules (h : g.NoModules pairs) (v : String) :
    ((collectModuleNamesForRepos answers g pairs).1.get? v).getD [] = [] := by
  have hloop : ∀ (ps : List (RepoPair × Nat)) (s : Dict String (List String) × List CleanupWarning),
      (∀ p ∈ ps, p.1 ∈ pairs) → (∀ v, (s.1.get? v).getD [] = []) →
      ((ps.foldl (collectPair answers g) s).1.get? v).getD [] = [] := by
    intro ps
    induction ps with
    | nil => exact fun s _ hs => hs v
    | cons p ps ih =>
      intro s hmem hs
      refine ih _ (fun q hq => hmem q (List.mem_cons_of_mem _ hq)) ?_
      intro v'
      unfold collectPair
      dsimp only
      split
      · exact hs v'
      · split
        · exact hs v'
        · dsimp only
          rw [Dict.get?_set, hs, h.moduleNames (hmem p List.mem_cons_self)]
          split
          · rfl
          · exact hs v'
  refine hloop _ _ ?_ (fun _ => rfl)
  intro p hp
  exact List.fst_mem_of_mem_zipIdx hp

/-- … and no row is deleted. -/
theorem deleteEmbeddings_of_noNames {names : Dict String (List String)}
    (h : ∀ v, (names.get? v).getD [] = []) (t : EmbeddingTable Vec) :
    deleteEmbeddingsForRepos answers pairs names t = (t, 0, []) := by
  unfold deleteEmbeddingsForRepos
  simp [h]

end Helpers

/-- **A cleanup that finds nothing changes nothing, and is silent.** -/
theorem cleanUp_of_noModules {answers : StoreAnswers} {pairs : List RepoPair} {ix : Index Vec}
    (h : ix.graph.NoModules pairs) (hans : answers.GraphAnswers pairs) :
    (cleanUp answers pairs ix).index = ix ∧ (cleanUp answers pairs ix).warnings = [] := by
  have hgraph : (deleteNeo4jForRepos answers pairs ix.graph).1 = ix.graph :=
    (graph_deleteNeo4jForRepos hans).trans (foldl_delete_of_noModules h)
  have hnames : ∀ v, ((collectModuleNamesForRepos answers ix.graph pairs).1.get? v).getD [] = [] :=
    collect_of_noModules h
  have hrows : deleteEmbeddingsForRepos answers pairs _ ix.embeddings = _ :=
    deleteEmbeddings_of_noNames hnames ix.embeddings
  obtain ⟨hcollect, hdelete⟩ := (graphAnswers_iff (g := ix.graph)).mp hans
  unfold cleanUp
  simp only [hgraph, hrows, hcollect, hdelete, List.append_nil, and_self]

/-- A silent cleanup has taken the modules of the pairs out. -/
theorem cleanUp_of_silent {answers : StoreAnswers} {pairs : List RepoPair} {ix : Index Vec}
    (h : (cleanUp answers pairs ix).warnings = []) :
    answers.GraphAnswers pairs ∧ ∀ pair ∈ pairs, ∀ k,
      ix.graph.inRepo pair.basename pair.version k = true →
        (cleanUp answers pairs ix).index.graph.modules.lookup k = none := by
  obtain ⟨hgraph, -⟩ := List.append_eq_nil_iff.mp h
  have hans := graphAnswers_iff.mpr (List.append_eq_nil_iff.mp hgraph)
  refine ⟨hans, fun pair hp k hk => ?_⟩
  show (deleteNeo4jForRepos answers pairs ix.graph).1.modules.lookup k = none
  rw [graph_deleteNeo4jForRepos hans]
  exact lookup_modules_foldl_delete pairs ix.graph hp hk

/-! ## The two front ends side by side -/

/-- The registry without the row. -/
def DeleteTarget.deleteRow (db : Db) : DeleteTarget → Option Db
  | repo repoId => (db.deleteRepo repoId).toOption.map Prod.fst
  | profile name => (db.profileNamed name).bind fun p =>
      (db.deleteProfile p.1).toOption.map Prod.fst

theorem profileNamed_eq_some {db : Db} {name : String} {id : Nat} {p : ProfileRow}
    (h : db.profileNamed name = some (id, p)) : db.profiles.lookup id = some p ∧ p.name = name := by
  unfold Db.profileNamed at h
  obtain ⟨e, he, heq⟩ := Option.map_eq_some_iff.mp h
  obtain ⟨rfl, rfl⟩ := Prod.mk.inj heq
  refine ⟨AList.mem_lookup_iff.mpr (List.mem_of_find?_eq_some he), ?_⟩
  simpa using List.find?_some he

theorem cliDelete_of_deleted {w : World Vec} {target : DeleteTarget}
    (h : (cliDelete true w target).2 = .deleted) :
    ∃ db, target.deleteRow w.db = some db ∧ (cliDelete true w target).1 = { w with db } := by
  have hreport : ∀ {α : Type} (r : Except DeleteError (Db × α)),
      (reportDeletion w r).2 = .deleted → ∃ db, r.toOption.map Prod.fst = some db ∧
        (reportDeletion w r).1 = { w with db } := by
    intro α r hr
    cases r with
    | ok res => exact ⟨res.1, rfl, rfl⟩
    | error e => cases e <;> exact absurd hr (by simp [reportDeletion])
  cases target with
  | repo repoId =>
    unfold cliDelete cmdDeleteRepo at h ⊢
    cases hget : w.db.getRepoById repoId with
    | none => simp [hget] at h
    | some r =>
      simp only [hget, Option.map_some, Bool.not_true, Bool.false_eq_true, if_false] at h ⊢
      exact hreport _ h
  | profile name =>
    unfold cliDelete cmdDeleteProfile at h ⊢
    cases hnamed : w.db.profileNamed name with
    | none => simp [hnamed] at h
    | some p =>
      simp only [hnamed, Bool.not_true, Bool.false_eq_true, if_false] at h ⊢
      obtain ⟨db, hdb, heq⟩ := hreport _ h
      exact ⟨db, by simp [DeleteTarget.deleteRow, hnamed, hdb], heq⟩

theorem webDelete_of_ok {running : String → Bool} {answers : StoreAnswers} {w : World Vec}
    {target : DeleteTarget} (h : (webDelete running answers w target).response.ok = true) :
    ∃ db, target.deleteRow w.db = some db ∧
      (webDelete running answers w target).world =
        ⟨(cleanUp answers (target.pairs w.db) w.index).index, db⟩ ∧
      (webDelete running answers w target).warnings =
        (cleanUp answers (target.pairs w.db) w.index).warnings := by
  cases target with
  | repo repoId =>
    unfold webDelete deleteRepoRoute at h ⊢
    cases hget : w.db.getRepoById repoId with
    | none => simp [hget, DeleteResponse.ok] at h
    | some r =>
      simp only [hget] at h ⊢
      split at h
      · exact absurd h (by simp [DeleteResponse.ok])
      · rename_i hrun
        rw [if_neg hrun]
        cases hdel : w.db.deleteRepo repoId with
        | error e => simp [hdel, DeleteResponse.ok] at h
        | ok res =>
          refine ⟨res.1, by simp [DeleteTarget.deleteRow, hdel, Except.toOption], ?_⟩
          simp [DeleteTarget.pairs, hget]
  | profile name =>
    unfold webDelete at h ⊢
    cases hnamed : w.db.profileNamed name with
    | none => simp [hnamed, DeleteResponse.ok] at h
    | some p =>
      obtain ⟨id, p⟩ := p
      obtain ⟨hrow, rfl⟩ := profileNamed_eq_some hnamed
      simp only [hnamed, deleteProfileRoute, hrow] at h ⊢
      split at h
      · exact absurd h (by simp [DeleteResponse.ok])
      · rename_i hrun
        rw [if_neg hrun]
        cases hdel : w.db.deleteProfile id with
        | error e => simp [hdel, DeleteResponse.ok] at h
        | ok res =>
          refine ⟨res.1, by simp [DeleteTarget.deleteRow, hnamed, hdel, Except.toOption], ?_⟩
          simp [DeleteTarget.pairs]

/-- **The law holds of the deletions that find no trace of the deleted repos**, in a graph that
answers, and of no others. -/
theorem deletion_law_iff (hist : History Vec) (db : Db) (running : String → Bool)
    (answers : StoreAnswers) (target : DeleteTarget)
    (hweb : (webDelete running answers ⟨hist.index, db⟩ target).response.ok = true)
    (hcli : (cliDelete true ⟨hist.index, db⟩ target).2 = .deleted) :
    DeletionLaw hist db running answers target ↔
      (∀ d, Present hist.index d → ¬ OnlyFrom hist d (target.repoIds db)) ∧
        hist.index.graph.NoModules (target.pairs db) ∧ answers.GraphAnswers (target.pairs db) := by
  obtain ⟨dbw, hdbw, hworld, hwarnings⟩ := webDelete_of_ok hweb
  obtain ⟨dbc, hdbc, hcliWorld⟩ := cliDelete_of_deleted hcli
  constructor
  · intro h
    have hcomplete := h.cliComplete
    rw [hcliWorld] at hcomplete
    have hsilent : (cleanUp answers (target.pairs db) hist.index).warnings = [] := by
      by_contra hne
      have htold := (h.told (hwarnings ▸ hne)).1
      rw [hweb] at htold
      exact absurd htold (by simp)
    obtain ⟨hans, hgone⟩ := cleanUp_of_silent hsilent
    refine ⟨hcomplete, ?_, hans⟩
    intro pair hp k
    rw [Bool.eq_false_iff]
    intro hk
    obtain ⟨-, props, hprops, -⟩ := inRepo_iff.mp hk
    have hsame := h.sameIndex (.module k)
    rw [hworld, hcliWorld] at hsame
    have hlookup : none = some props := (hgone pair hp k hk).symm.trans (hsame.trans hprops)
    exact absurd hlookup (by simp)
  · intro h
    obtain ⟨hnothing, hmodules, hans⟩ := h
    obtain ⟨hindex, hsilent⟩ := cleanUp_of_noModules hmodules hans
    have hwebIndex :
        (webDelete running answers ⟨hist.index, db⟩ target).world.index = hist.index := by
      rw [hworld]
      exact hindex
    have hcliIndex : (cliDelete true ⟨hist.index, db⟩ target).1.index = hist.index := by
      rw [hcliWorld]
    refine ⟨?_, ?_, ?_, ?_, ?_, ?_, ?_⟩
    · rw [hwebIndex]
      exact hnothing
    · rw [hcliIndex]
      exact hnothing
    · intro d r _ _ _
      rw [hwebIndex]
      exact .refl _ d
    · intro d r _ _ _
      rw [hcliIndex]
      exact .refl _ d
    · rw [hworld, hcliWorld]
      exact Option.some.inj (hdbw.symm.trans hdbc)
    · intro d
      rw [hwebIndex, hcliIndex]
      exact .refl _ d
    · intro hne
      exact absurd (hwarnings.trans hsilent) hne

/-! ## A repo that was indexed, and one that was not -/

namespace TwoRepos

/-- The module `sale` of repo 7. -/
def sale : ModuleInfo :=
  { name := "sale", odooVersion := "17.0", repo := "shop", path := "/r/shop/sale", depends := [] }

/-- One profile with two repos, of which the first has been indexed. -/
def db : Db where
  profiles := AList.insert 1 { name := "base", odooVersion := "17.0" } ∅
  repos := AList.insert 7 { profileId := 1, url := "git@shop", branch := "17.0", localPath := "/r/shop" }
    (AList.insert 8 { profileId := 1, url := "git@pos", branch := "17.0", localPath := "/r/pos" } ∅)

def hist : History Unit := [(7, .writeResult ["base"] ⟨sale, []⟩)]

def idle : String → Bool := fun _ => false

theorem cameFrom_shop {d : Datum} {r : Nat} (h : CameFrom hist d r) : r = 7 := by
  obtain ⟨s, hs, -⟩ := h
  exact (Prod.mk.inj (List.mem_singleton.mp hs)).1

/-- The repo that was never indexed can be deleted either way. -/
theorem deletion_law_pos : DeletionLaw hist db idle {} (.repo 8) := by
  refine (deletion_law_iff hist db idle {} (.repo 8) (by decide) (by decide)).mpr ⟨?_, ?_, ?_⟩
  · intro d _ honly
    obtain ⟨r, hr, hcame⟩ := honly.1
    rw [cameFrom_shop hcame] at hr
    exact absurd hr (by decide)
  · intro pair hp k
    have hpair : pair = ⟨"pos", "17.0"⟩ := by
      have hpairs : (DeleteTarget.repo 8).pairs db = [⟨"pos", "17.0"⟩] := by decide
      rw [hpairs] at hp
      exact List.mem_singleton.mp hp
    subst hpair
    rw [Bool.eq_false_iff]
    intro hk
    obtain ⟨-, p, hp, hrepo⟩ := inRepo_iff.mp hk
    have hmem : k ∈ hist.index.graph.modules.keys :=
      AList.mem_keys.mp (AList.lookup_isSome.mp (by rw [hp]; rfl))
    have hkeys : ∀ k ∈ hist.index.graph.modules.keys,
        hist.index.graph.inRepo "pos" "17.0" k = false := by decide
    rw [hkeys k hmem] at hk
    exact absurd hk (by simp)
  · intro p _
    exact ⟨rfl, rfl, rfl⟩

/-- The command deletes the row of the other and leaves its module in the graph. -/
theorem deletion_law_shop :
    (webDelete idle {} ⟨hist.index, db⟩ (.repo 7)).response.ok = true ∧
      (cliDelete true ⟨hist.index, db⟩ (.repo 7)).2 = .deleted ∧
      ¬ DeletionLaw hist db idle {} (.repo 7) := by
  have hcli : (cliDelete true ⟨hist.index, db⟩ (.repo 7)).2 = .deleted := by decide
  refine ⟨by decide, hcli, fun h => ?_⟩
  obtain ⟨db', -, hworld⟩ := cliDelete_of_deleted hcli
  have hcomplete := h.cliComplete (.module sale.key)
  rw [hworld] at hcomplete
  refine hcomplete (by show sale.key ∈ hist.index.graph.modules; decide) ⟨⟨7, by decide, ?_⟩, ?_⟩
  · refine ⟨_, List.mem_singleton_self _, .code ["base"] (.mergeModule sale), ?_, ?_⟩
    · exact List.mem_singleton_self _
    · exact List.mem_singleton_self _
  · intro r hr
    rw [cameFrom_shop hr]
    exact List.mem_singleton_self _

end TwoRepos

end OdooSemantic
