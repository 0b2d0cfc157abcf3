import OdooSemantic.Lib.Machine
import OdooSemantic.Proof.Interruption

/-!
# Garbage collection over a history of commits

`gc_stale_modules` is the last thing a run does to the graph, and two of the exits of a run
come before it: the head is the stored one, or the diff touches no module that is still there.
A commit that only deletes a module takes the second exit. Its module stays in the graph, the
head advances, and the next run takes the first exit. The query itself goes by the basename of
the repo's directory, so it takes the modules of another checkout called the same with it.

Apart from these two the law holds. `Tracked` carries, beside the world, the paths that the
repo's own runs have indexed and not collected since; that the repo's modules are among them is
kept by every call (`Orderly.tracked`), and `gc_law` reads the law off it.
-/

namespace OdooSemantic

open KeyedStore PosixPath

variable {Vec : Type}

/-! ## Calls of `_index_repo` -/

/-- A call, and where it raises, if it does. -/
structure Call (Vec : Type) where
  repo : Repo
  checkout : Checkout
  opts : RunOptions Vec
  /-- The number of steps that are executed before it raises. -/
  upTo : Option Nat := none

namespace Call

variable (c : Call Vec) (w : World Vec)

def plan : Except IndexError (IndexPlan Vec) :=
  planIndexRepo c.repo c.checkout c.opts (w.db.getRepoHeadSha c.repo.id)

def run : World Vec × Option IndexError :=
  match c.upTo with
  | none => indexRepo c.repo c.checkout c.opts w
  | some n => ((indexRepoUpTo n c.repo c.checkout c.opts w).1, some .raised)

/-- The transactions on the index that are executed. -/
def writes : List (WriteStep Vec) :=
  match c.plan w with
  | .error _ => []
  | .ok plan =>
      match c.upTo with
      | none => plan.writes ++ plan.gc
      | some n => (plan.writes ++ plan.gc).take n

/-- `live_paths` -/
def live : List String := c.checkout.livePaths c.repo

/-- The two exits before garbage collection: the head is the stored one, or no module that is
    still there has changed since. -/
def exitsEarly : Bool :=
  let stored := w.db.getRepoHeadSha c.repo.id
  isUnchanged c.checkout c.opts stored ||
    ((diffBase c.checkout c.opts stored).isSome &&
      (modulesByVersion c.repo c.checkout c.opts stored).modules.isEmpty)

theorem index_run : (c.run w).1.index = WriteStep.execAll (c.writes w) w.index := by
  unfold run writes plan
  cases hplan : planIndexRepo c.repo c.checkout c.opts (w.db.getRepoHeadSha c.repo.id) with
  | error e => cases c.upTo <;> simp [indexRepo, indexRepoUpTo, hplan]
  | ok plan =>
    cases c.upTo with
    | none =>
      show (indexRepo c.repo c.checkout c.opts w).1.index = _
      rw [indexRepo_eq hplan, IndexPlan.index_execAll_steps]
    | some n =>
      show (indexRepoUpTo n c.repo c.checkout c.opts w).1.index = _
      rw [indexRepoUpTo_eq hplan, IndexPlan.index_execAll_take]

end Call

/-! ## The law -/

/-- The node is a module of the repo: of its version, carrying the basename of its directory,
    at a path below it. -/
structure Repo.Owns (r : Repo) (g : Graph) (k : ModuleKey) (path : String) : Prop where
  version : k.odooVersion = r.odooVersion
  node : ∃ p, g.modules.lookup k = some p ∧ p.repo = some (name r.localPath) ∧ p.path = some path
  below : ∃ dir, path = under r.localPath dir

/-- `r` is what the registry holds under its id. -/
def Db.Registered (db : Db) (r : Repo) : Prop :=
  ∃ d, db.getRepoById r.id = some d ∧ r.localPath = d.localPath ∧ r.odooVersion = d.odooVersion

/-- **What is promised** of one call. -/
structure GcLaw (c : Call Vec) (w : World Vec) : Prop where
  /-- After a success with a live module, the repo's modules in the graph are live. -/
  collected : (c.run w).2 = none → c.live ≠ [] →
    ∀ k path, c.repo.Owns (c.run w).1.index.graph k path → path ∈ c.live
  /-- No module of another registered repo is removed. -/
  kept : ∀ r, w.db.Registered r → r.id ≠ c.repo.id →
    ∀ k path, r.Owns w.index.graph k path → k ∈ (c.run w).1.index.graph.modules

/-! ## Histories -/

/-- The world, and the paths that the repo's runs have indexed and not collected since. -/
structure Tracked (Vec : Type) where
  world : World Vec
  indexed : List String := []

inductive Deed (Vec : Type) where
  | index (c : Call Vec)
  /-- Anything that is done to the registry between two calls. -/
  | registry (db : Db)

def WriteStep.track (paths : List String) : WriteStep Vec → List String
  | writeResult _ r => r.module.path :: paths
  | gcStaleModules _ _ live => paths.filter (· ∈ live)
  | _ => paths

section Histories

variable (repo : Repo)

/-- One deed, as seen from `repo`. -/
def Tracked.step (s : Tracked Vec) : Deed Vec → Option (Tracked Vec)
  | .index c => some
      { world := (c.run s.world).1
        indexed := if c.repo = repo then (c.writes s.world).foldl WriteStep.track s.indexed
          else s.indexed }
  | .registry db => some { s with world := { s.world with db } }

/-- What is asked of a call on the repo. -/
structure Orderly (s : Tracked Vec) (c : Call Vec) : Prop where
  gc : c.opts.gc = true
  /-- A call that exits early finds what was indexed before: nothing has been deleted or moved. -/
  early : c.upTo = none → c.live ≠ [] → c.exitsEarly s.world = true →
    ∀ path ∈ s.indexed, path ∈ c.live
  /-- A call that does not finds no module of another repo under its own basename. -/
  apart : c.exitsEarly s.world = false → ∀ r, s.world.db.Registered r → r.id ≠ c.repo.id →
    name r.localPath = name c.repo.localPath → r.odooVersion = c.repo.odooVersion →
      ∀ k path, ¬ r.Owns s.world.index.graph k path

/-- The two directories have different basenames, or no directory in common. -/
def Repo.Apart (a b : Repo) : Prop :=
  name a.localPath = name b.localPath →
    ∀ dir dir', under a.localPath dir ≠ under b.localPath dir'

/-- The condition on a history: calls on the repo are orderly, calls on other repos work in
    other directories. -/
def Meets (s : Tracked Vec) : Deed Vec → Prop
  | .index c => if c.repo = repo then Orderly s c else c.repo.Apart repo
  | .registry _ => True

end Histories

/-! ## What one transaction does to the modules of a repo -/

section Transactions

variable {r : Repo} {co : Checkout} {ps : List String} {written : List ModuleInfo}
  {s : WriteStep Vec} {ix : Index Vec} {k : ModuleKey} {path : String}

/-- A module of the repo was one before, or has just been written. -/
theorem Repo.Owns.of_planned (hs : Planned co ps written s) (h : r.Owns (s.exec ix).graph k path) :
    r.Owns ix.graph k path ∨ ∃ info ∈ written, s = .writeResult ps (co.parseResult info) ∧
      info.repo = name r.localPath ∧ info.path = path := by
  obtain ⟨p, hl, hrepo, hpath⟩ := h.node
  have hplan : ∀ t ∈ [s], Planned co ps written t := fun t ht => List.mem_singleton.mp ht ▸ hs
  have hexec := lookup_modules_writes hplan ix k
  rw [WriteStep.execAll_cons, WriteStep.execAll_nil, hl] at hexec
  cases origin_runLetters ps hexec.symm hrepo hpath with
  | inl hold => exact Or.inl { h with node := hold }
  | inr hnew =>
    obtain ⟨m, hm, hmrepo, hmpath⟩ := hnew
    obtain ⟨t, ht, hmem⟩ := mem_letters_writes.mp hm
    obtain rfl := List.mem_singleton.mp ht
    obtain ⟨hmw, -, hres⟩ := result_of_planned hs hmem
    exact Or.inr ⟨m, hmw, hres, hmrepo, hmpath⟩

/-- Garbage collection makes no module of the repo. -/
theorem Repo.Owns.of_gc {basename version : String} {live : List String}
    (h : r.Owns (gcStaleModules basename version live ix.graph) k path) :
    r.Owns ix.graph k path ∧ ix.graph.isStale basename version live k = false := by
  obtain ⟨p, hl, hp⟩ := h.node
  rw [lookup_modules_gcStaleModules] at hl
  split at hl
  · exact absurd hl (by simp)
  · rename_i hstale
    exact ⟨{ h with node := ⟨p, hl, hp⟩ }, by simpa [Graph.isStale] using hstale⟩

/-- **After the repo's own garbage collection its modules are live.** -/
theorem Repo.Owns.live_of_gc {live : List String}
    (h : r.Owns (gcStaleModules (name r.localPath) r.odooVersion live ix.graph) k path) :
    path ∈ live := by
  obtain ⟨hold, hfresh⟩ := h.of_gc
  obtain ⟨p, hl, hrepo, hpath⟩ := hold.node
  by_contra hdead
  have hstale : ix.graph.isStale (name r.localPath) r.odooVersion live k = true :=
    isStaleModule_iff.mpr ⟨hold.version, p, path, hl, hrepo, hpath, hdead⟩
  rw [hstale] at hfresh
  exact absurd hfresh (by simp)

/-- A merge removes no module. -/
theorem mem_modules_of_planned {ws : List (WriteStep Vec)}
    (hws : ∀ s ∈ ws, Planned co ps written s) (h : k ∈ ix.graph.modules) :
    k ∈ (WriteStep.execAll ws ix).graph.modules := by
  rw [← AList.lookup_isSome] at h ⊢
  rw [lookup_modules_writes hws]
  by_cases hts : lettersAt k (ws.flatMap WriteStep.moduleMerges) = []
  · rw [hts]
    exact h
  · exact isSome_runLetters ps hts _

end Transactions

/-! ## What one call does to them -/

namespace Call

variable {c : Call Vec} {w : World Vec}

/-- The garbage collection of the call. -/
def gcStep (c : Call Vec) : WriteStep Vec :=
  .gcStaleModules (name c.repo.localPath) c.repo.odooVersion c.live

/-- The modules the call writes. -/
def written (c : Call Vec) (w : World Vec) : List ModuleInfo :=
  writtenModules c.repo c.checkout c.opts (w.db.getRepoHeadSha c.repo.id)

/-- A call that exits early has planned no write. -/
theorem plan_of_exitsEarly {plan : IndexPlan Vec} (h : c.exitsEarly w = true)
    (hplan : c.plan w = .ok plan) : plan.writes = [] ∧ plan.gc = [] := by
  rcases planIndexRepo_cases hplan with ⟨-, rfl⟩ | ⟨-, -, -, rfl⟩ | ⟨hun, rfl⟩
  · exact ⟨rfl, rfl⟩
  · exact ⟨rfl, rfl⟩
  · -- the full plan is the plan of a call that does not exit early
    simp only [exitsEarly, hun, Bool.false_or] at h
    unfold Call.plan planIndexRepo at hplan
    dsimp only at hplan
    rw [if_neg (by simpa using isDir_of_planIndexRepo hplan), if_neg (by simp [hun]),
      if_pos h] at hplan
    rw [← Except.ok.inj hplan]
    exact ⟨rfl, rfl⟩

theorem plan_of_not_exitsEarly {plan : IndexPlan Vec} (h : c.exitsEarly w = false)
    (hplan : c.plan w = .ok plan) :
    plan.writes = planWrites c.repo c.checkout c.opts (w.db.getRepoHeadSha c.repo.id) ∧
      plan.gc = gcSteps c.repo c.checkout c.opts := by
  simp only [exitsEarly, Bool.or_eq_false_iff] at h
  rcases planIndexRepo_cases hplan with ⟨hun, -⟩ | ⟨-, hbase, hempty, -⟩ | ⟨-, rfl⟩
  · rw [hun] at h
    exact absurd h.1 (by simp)
  · rw [hbase, hempty] at h
    exact absurd h.2 (by simp)
  · exact ⟨rfl, rfl⟩

/-- The writes of a call: some first part of its merges, or all of them and then garbage
    collection. -/
theorem writes_cases (c : Call Vec) (w : World Vec) :
    (∀ s ∈ c.writes w, Planned c.checkout c.opts.ancestorProfiles (c.written w) s) ∨
    (c.exitsEarly w = false ∧
      c.writes w = planWrites c.repo c.checkout c.opts (w.db.getRepoHeadSha c.repo.id)
        ++ [c.gcStep]) := by
  unfold writes
  cases hplan : c.plan w with
  | error e => exact Or.inl fun s hs => absurd hs (by simp)
  | ok plan =>
    dsimp only
    cases hearly : c.exitsEarly w with
    | true =>
      obtain ⟨hwrites, hgc⟩ := plan_of_exitsEarly hearly hplan
      rw [hwrites, hgc]
      refine Or.inl fun s hs => absurd hs ?_
      cases c.upTo <;> simp
    | false =>
      obtain ⟨hwrites, hgc⟩ := plan_of_not_exitsEarly hearly hplan
      have hmerge : ∀ s ∈ plan.writes,
          Planned c.checkout c.opts.ancestorProfiles (c.written w) s := by
        rw [hwrites]
        exact fun s hs => planned_of_mem_planWrites _ _ _ _ hs
      by_cases hnone : plan.gc = []
      · rw [hnone, List.append_nil]
        refine Or.inl fun s hs => hmerge s ?_
        cases hn : c.upTo with
        | none => simpa [hn] using hs
        | some n =>
          rw [hn] at hs
          exact List.mem_of_mem_take hs
      · have hone : plan.gc = [c.gcStep] := (gc_of_plan hplan hnone).2
        rw [hone, ← hwrites]
        cases hn : c.upTo with
        | none => exact Or.inr ⟨rfl, rfl⟩
        | some n =>
          by_cases hle : n ≤ plan.writes.length
          · refine Or.inl fun s hs => hmerge s ?_
            dsimp only at hs
            rw [List.take_append_of_le_length hle] at hs
            exact List.mem_of_mem_take hs
          · refine Or.inr ⟨rfl, List.take_of_length_le ?_⟩
            rw [List.length_append, List.length_singleton]
            omega

/-- The modules that are written are in the checkout. -/
theorem written_spec {info : ModuleInfo} (h : info ∈ c.written w) :
    info.path ∈ c.live ∧ info.repo = name c.repo.localPath ∧
      ∃ dir, info.path = under c.repo.localPath dir := by
  have hmem := ((mem_modulesByVersion _ _ _ _).mp h).1
  obtain ⟨file, -, hfile⟩ := exists_file_of_mem_buildRegistry _ _ _ hmem
  obtain ⟨hrepo, hpath, -⟩ := moduleOf_spec _ _ _ hfile
  exact ⟨List.mem_map_of_mem hmem, hrepo, file.dir, hpath⟩

end Call

/-! ## The invariant -/

/-- The repo's modules are at paths that its runs have indexed and not collected. -/
def Tracks (repo : Repo) (ix : Index Vec) (paths : List String) : Prop :=
  ∀ k path, repo.Owns ix.graph k path → path ∈ paths

section Kept

variable {c : Call Vec} {w : World Vec} {s : Tracked Vec} {repo : Repo}

/-- **One transaction of the repo's own call.** -/
theorem Tracks.exec {t : WriteStep Vec} {ix : Index Vec} {paths : List String}
    (h : Tracks c.repo ix paths)
    (ht : Planned c.checkout c.opts.ancestorProfiles (c.written w) t ∨ t = c.gcStep) :
    Tracks c.repo (t.exec ix) (t.track paths) := by
  intro k path howns
  cases ht with
  | inr hgc =>
    subst hgc
    refine List.mem_filter.mpr ⟨h k path (Repo.Owns.of_gc howns).1, ?_⟩
    exact decide_eq_true (Repo.Owns.live_of_gc howns)
  | inl hplanned =>
    cases Repo.Owns.of_planned hplanned howns with
    | inl hold =>
      have hpath := h k path hold
      cases hplanned with
      | result => exact List.mem_cons_of_mem _ hpath
      | _ => exact hpath
    | inr hnew =>
      obtain ⟨info, -, rfl, -, rfl⟩ := hnew
      exact List.mem_cons_self

theorem Tracks.execAll {ts : List (WriteStep Vec)} {ix : Index Vec} {paths : List String}
    (h : Tracks c.repo ix paths) (hts : ∀ t ∈ ts,
      Planned c.checkout c.opts.ancestorProfiles (c.written w) t ∨ t = c.gcStep) :
    Tracks c.repo (WriteStep.execAll ts ix) (ts.foldl WriteStep.track paths) := by
  induction ts generalizing ix paths with
  | nil => exact h
  | cons t ts ih =>
    exact ih (h.exec (hts t List.mem_cons_self)) fun u hu => hts u (List.mem_cons_of_mem _ hu)

/-- What a call executes is planned, or is its garbage collection. -/
theorem Call.planned_or_gc {t : WriteStep Vec} (ht : t ∈ c.writes w) :
    Planned c.checkout c.opts.ancestorProfiles (c.written w) t ∨ t = c.gcStep := by
  cases c.writes_cases w with
  | inl hmerges => exact Or.inl (hmerges t ht)
  | inr hall =>
    rw [hall.2] at ht
    cases List.mem_append.mp ht with
    | inl hmerge => exact Or.inl (planned_of_mem_planWrites _ _ _ _ hmerge)
    | inr hgc => exact Or.inr (List.mem_singleton.mp hgc)

/-- A call on another repo gives the repo no module. -/
theorem Repo.Owns.of_other (hapart : c.repo.Apart repo) {k : ModuleKey} {path : String}
    {ts : List (WriteStep Vec)} (hts : ∀ t ∈ ts,
      Planned c.checkout c.opts.ancestorProfiles (c.written w) t ∨ t = c.gcStep)
    {ix : Index Vec} (h : repo.Owns (WriteStep.execAll ts ix).graph k path) :
    repo.Owns ix.graph k path := by
  induction ts generalizing ix with
  | nil => exact h
  | cons t ts ih =>
    have hstep := ih (fun u hu => hts u (List.mem_cons_of_mem _ hu)) h
    cases hts t List.mem_cons_self with
    | inr hgc =>
      subst hgc
      exact (Repo.Owns.of_gc hstep).1
    | inl hplanned =>
      cases Repo.Owns.of_planned hplanned hstep with
      | inl hold => exact hold
      | inr hnew =>
        obtain ⟨info, hinfo, -, hname, rfl⟩ := hnew
        obtain ⟨-, hrepo, dir, hdir⟩ := Call.written_spec hinfo
        obtain ⟨dir', hdir'⟩ := h.below
        exact absurd (hdir.symm.trans hdir') (hapart (hrepo.symm.trans hname) dir dir')

/-- **Every deed of a history keeps the invariant.** -/
theorem tracks_step {d : Deed Vec} {s' : Tracked Vec} (hstep : Tracked.step repo s d = some s')
    (hok : Meets repo s d) (h : Tracks repo s.world.index s.indexed) :
    Tracks repo s'.world.index s'.indexed := by
  cases d with
  | registry db =>
    obtain rfl := Option.some.inj hstep
    exact h
  | index c =>
    obtain rfl := Option.some.inj hstep
    unfold Meets at hok
    dsimp only at hok ⊢
    rw [Call.index_run]
    by_cases hrepo : c.repo = repo
    · subst hrepo
      rw [if_pos rfl]
      exact h.execAll fun t ht => Call.planned_or_gc ht
    · rw [if_neg hrepo] at hok ⊢
      exact fun k path howns =>
        h k path (Repo.Owns.of_other hok (fun t ht => Call.planned_or_gc ht) howns)

/-! ## The law, call by call -/

/-- What a successful call has executed. -/
theorem Call.writes_of_success (hgc : c.opts.gc = true) (hlive : c.live ≠ [])
    (hok : (c.run w).2 = none) :
    c.upTo = none ∧ (c.exitsEarly w = true ∧ c.writes w = [] ∨
      c.exitsEarly w = false ∧ ∃ ms, c.writes w = ms ++ [c.gcStep]) := by
  cases hn : c.upTo with
  | some n =>
    unfold Call.run at hok
    rw [hn] at hok
    exact absurd hok (by simp)
  | none =>
    refine ⟨rfl, ?_⟩
    have hrun : c.run w = indexRepo c.repo c.checkout c.opts w := by
      unfold Call.run
      rw [hn]
    unfold Call.writes
    cases hplan : c.plan w with
    | error e =>
      have hplan' : planIndexRepo c.repo c.checkout c.opts (w.db.getRepoHeadSha c.repo.id) =
          .error e := hplan
      rw [hrun, indexRepo, hplan'] at hok
      exact absurd hok (by simp)
    | ok plan =>
      rw [hn]
      cases hearly : c.exitsEarly w with
      | true =>
        obtain ⟨hwrites, hgcs⟩ := plan_of_exitsEarly hearly hplan
        refine Or.inl ⟨rfl, ?_⟩
        show plan.writes ++ plan.gc = _
        rw [hwrites, hgcs, List.append_nil]
      | false =>
        refine Or.inr ⟨rfl, plan.writes, ?_⟩
        have hsteps : gcSteps c.repo c.checkout c.opts = [c.gcStep] := by
          unfold gcSteps
          rw [if_pos]
          · rfl
          · simpa [hgc, Call.live] using hlive
        show plan.writes ++ plan.gc = _
        rw [(plan_of_not_exitsEarly hearly hplan).2, hsteps]

/-- **The first half**: what the repo has in the graph after a success is live. -/
theorem Orderly.collected (h : Orderly s c) (htracks : Tracks c.repo s.world.index s.indexed)
    (hok : (c.run s.world).2 = none) (hlive : c.live ≠ []) {k : ModuleKey} {path : String}
    (howns : c.repo.Owns (c.run s.world).1.index.graph k path) : path ∈ c.live := by
  obtain ⟨hn, hwrites⟩ := Call.writes_of_success h.gc hlive hok
  rw [Call.index_run] at howns
  rcases hwrites with ⟨hearly, hnil⟩ | ⟨-, ms, hms⟩
  · rw [hnil, WriteStep.execAll_nil] at howns
    exact h.early hn hlive hearly path (htracks k path howns)
  · rw [hms, WriteStep.execAll_append] at howns
    exact Repo.Owns.live_of_gc howns

/-- **The second half**: the modules of the other registered repos stay. -/
theorem Orderly.kept (h : Orderly s c) {r : Repo} (hr : s.world.db.Registered r)
    (hne : r.id ≠ c.repo.id) {k : ModuleKey} {path : String}
    (howns : r.Owns s.world.index.graph k path) :
    k ∈ (c.run s.world).1.index.graph.modules := by
  obtain ⟨p, hl, hrepo, -⟩ := howns.node
  have hmem : k ∈ s.world.index.graph.modules := AList.lookup_isSome.mp (by rw [hl]; rfl)
  rw [Call.index_run]
  rcases c.writes_cases s.world with hmerges | ⟨hearly, hall⟩
  · exact mem_modules_of_planned hmerges hmem
  · have hmerges : ∀ t ∈ planWrites c.repo c.checkout c.opts
        (s.world.db.getRepoHeadSha c.repo.id),
        Planned c.checkout c.opts.ancestorProfiles (c.written s.world) t :=
      fun t ht => planned_of_mem_planWrites _ _ _ _ ht
    rw [hall, WriteStep.execAll_append, ← AList.lookup_isSome]
    show ((gcStaleModules _ _ _ _).modules.lookup k).isSome = true
    rw [lookup_modules_gcStaleModules]
    have hkept := AList.lookup_isSome.mpr (mem_modules_of_planned hmerges hmem)
    split
    · -- what is collected was stale before: a module of another repo under the same basename
      rename_i hstale
      have hbefore := ((isStale_writes hmerges (fun info hinfo =>
        writeResult_mem_planWrites _ _ _ _ hinfo) (fun info hinfo =>
          (Call.written_spec hinfo).1) _ _ s.world.index k).mp hstale).1
      obtain ⟨hversion, p', path', hl', hrepo', -, -⟩ := isStaleModule_iff.mp hbefore
      obtain rfl := Option.some.inj (hl.symm.trans hl')
      have hname := Option.some.inj (hrepo.symm.trans hrepo')
      exact absurd howns (h.apart hearly r hr hne hname (howns.version.symm.trans hversion) k path)
    · exact hkept

/-- **The garbage-collection law**, after every history that meets the condition: the repo is
    new to the graph, its calls are orderly, and calls on other repos work in other
    directories. -/
theorem gc_law {w : World Vec} {ds : List (Deed Vec)}
    (hnew : ∀ k path, ¬ repo.Owns w.index.graph k path)
    (hrun : Machine.Runs (Tracked.step repo) (Meets repo) { world := w } ds s)
    (hrepo : c.repo = repo) (hmeets : Meets repo s (.index c)) : GcLaw c s.world := by
  have htracks : Tracks repo s.world.index s.indexed :=
    hrun.invariant (fun _ _ _ hstep hok h => tracks_step hstep hok h)
      fun k path howns => absurd howns (hnew k path)
  subst hrepo
  have horderly : Orderly s c := by
    unfold Meets at hmeets
    dsimp only at hmeets
    rwa [if_pos rfl] at hmeets
  constructor
  · exact fun hok hlive k path howns => horderly.collected htracks hok hlive howns
  · exact fun r hr hne k path howns => horderly.kept hr hne howns

end Kept

/-! ### Two commits

`c2` deletes the module `stock` of `c1`, and may change `sale` in the same commit. -/

namespace TwoCommits

def shop : Repo := ⟨1, "/srv/addons", "17.0"⟩

def manifest (dir : String) : ManifestFile where
  dir := [dir]
  manifest := some { version := "17.0.1.0.0" }

def checkout (sha : String) (dirs : List String) (changed : List String) : Checkout where
  head := .completed 0 sha
  ancestry := fun _ => .completed 0 ""
  diff := fun _ => ⟨changed.map fun dir => .file [dir, "__manifest__.py"], .printed⟩
  files := dirs.map fun dir => [dir, "__manifest__.py"]
  manifests := dirs.map manifest
  parse := Parsed.empty

def first : Call Unit := ⟨shop, checkout "c1\n" ["sale", "stock"] [], { gc := true }, none⟩

def second (changed : List String) : Call Unit :=
  ⟨shop, checkout "c2\n" ["sale"] changed, { gc := true }, none⟩

def row (localPath : String) : RepoRow where
  profileId := 1
  url := "git@shop/addons"
  branch := "17.0"
  localPath := localPath

def db : Db where
  profiles := AList.insert 1 { name := "shop", odooVersion := "17.0" } ∅
  repos := AList.insert 1 (row "/srv/addons") ∅

def world : World Unit := { db }

def afterFirst : Tracked Unit where
  world := (first.run world).1
  indexed := (first.writes world).foldl WriteStep.track []

/-- Another checkout called `addons`, with a module `crm`. -/
def twin : Repo := ⟨2, "/home/addons", "17.0"⟩

def twinCrm : ModuleProps where
  repo := some "addons"
  path := some "/home/addons/crm"
  profile := some ["shop"]

def twinWorld : World Unit where
  index := { graph := { modules := AList.insert ⟨"crm", "17.0"⟩ twinCrm ∅ } }
  db := { db with repos := AList.insert 2 (row "/home/addons") (AList.insert 1 (row "/srv/addons") ∅) }

/-- **The law fails** after a commit that only deletes `stock`, and where another registered
    checkout has the same basename. -/
theorem gc_law_fails :
    Tracked.step shop { world } (.index first) = some afterFirst ∧
      ¬ GcLaw (second ["stock"]) afterFirst.world ∧ ¬ GcLaw first twinWorld := by
  refine ⟨rfl, ?_, ?_⟩
  · intro h
    have hlive := h.collected (by decide) (by decide) ⟨"stock", "17.0"⟩ "/srv/addons/stock"
      ⟨rfl, ⟨_, rfl, rfl, rfl⟩, ["stock"], by decide⟩
    exact absurd hlive (by decide)
  · intro h
    have hkept := h.kept twin ⟨_, rfl, rfl, rfl⟩ (by decide) ⟨"crm", "17.0"⟩ "/home/addons/crm"
      ⟨rfl, ⟨_, rfl, rfl, rfl⟩, ["crm"], by decide⟩
    exact absurd hkept (by decide)

theorem id_of_registered {db : Db} {r : Repo} (hkeys : db.repos.keys = [1])
    (h : db.Registered r) : r.id = 1 := by
  obtain ⟨d, hd, -, -⟩ := h
  obtain ⟨row, hrow, -⟩ := Option.bind_eq_some_iff.mp hd
  have hmem : r.id ∈ db.repos.keys :=
    AList.mem_keys.mp (AList.lookup_isSome.mp (by rw [hrow]; rfl))
  rw [hkeys] at hmem
  exact List.mem_singleton.mp hmem

/-- The law where the second commit changes `sale` too. -/
theorem gc_law_two_commits : GcLaw (second ["sale", "stock"]) afterFirst.world := by
  have hfirst : Meets shop { world } (.index first) :=
    ⟨rfl, fun _ _ _ path hpath => absurd hpath (by simp), fun _ r hr hne =>
      absurd (id_of_registered (by decide) hr) hne⟩
  have hsecond : Meets shop afterFirst (.index (second ["sale", "stock"])) :=
    ⟨rfl, fun _ _ hearly => absurd hearly (by decide), fun _ r hr hne =>
      absurd (id_of_registered (by decide) hr) hne⟩
  have hnew : ∀ k path, ¬ shop.Owns world.index.graph k path := by
    intro k path h
    obtain ⟨p, hl, -⟩ := h.node
    cases hl
  exact gc_law hnew (.cons rfl hfirst (.nil afterFirst)) rfl hsecond

end TwoCommits

end OdooSemantic
