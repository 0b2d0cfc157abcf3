import OdooSemantic.Indexer.Workers

/-!
# A reset and an update of the same row

Worker `A` resets the head of repo `B`, and a worker that is indexing `B` writes the head it
has read from the checkout at the end of its run. The second write does not ask whether the
row is as it was when the run began, so it undoes a reset that came in between: `B` has been
read before `A` wrote the graph, and its stored head says that it is up to date
(`crossing_lost`).

That is the only way a reset is lost. In a run of the system where no worker updates a head
after such a reset (`guardedUpdate`), every reset is answered, at every moment: the head is
still `NULL`, or some worker began on that repo after the last graph write of the run that
reset it, and has finished (`noLostReset_of_guarded`).
-/

namespace OdooSemantic

open Machine

variable {Vec : Type}

/-! ## The order of steps in a plan -/

/-- Writes first, then the steps on the database, which update no row but the repo's own. -/
def Ordered (repoId : Nat) (steps : List (IndexStep Vec)) : Prop :=
  ∃ (ws : List (WriteStep Vec)) (ds : List DbStep), steps = ws.map .write ++ ds.map .db ∧
    ∀ id sha, DbStep.updateHeadSha id sha ∈ ds → id = repoId

theorem ordered_of_plan {repo : Repo} {co : Checkout} {opts : RunOptions Vec}
    {stored : Option String} {plan : IndexPlan Vec}
    (h : planIndexRepo repo co opts stored = .ok plan) : Ordered repo.id plan.steps := by
  have hhead : ∀ id sha, DbStep.updateHeadSha id sha ∈ headSteps repo co opts → id = repo.id := by
    intro id sha hmem
    unfold headSteps at hmem
    split at hmem
    · split at hmem
      · exact (DbStep.updateHeadSha.inj (List.mem_singleton.mp hmem)).1
      · exact absurd hmem (by simp)
    · exact absurd hmem (by simp)
  refine ⟨_, _, rfl, fun id sha hmem => ?_⟩
  rcases planIndexRepo_cases h with ⟨-, rfl⟩ | ⟨-, -, -, rfl⟩ | ⟨-, rfl⟩
  · exact absurd hmem (by simp)
  · exact hhead id sha (by simpa using hmem)
  · cases List.mem_append.mp hmem with
    | inl hmem => exact hhead id sha hmem
    | inr hmem =>
      have hprop : DbStep.updateHeadSha id sha ∈ propagateSteps repo co opts stored
          (changedModuleNames (modulesByVersion repo co opts stored)) := hmem
      unfold propagateSteps at hprop
      split at hprop
      · exact absurd hprop (by simp)
      · exact absurd hprop (by simp)

theorem Ordered.tail {repoId : Nat} {t : IndexStep Vec} {rest : List (IndexStep Vec)}
    (h : Ordered repoId (t :: rest)) : Ordered repoId rest := by
  obtain ⟨ws, ds, hsplit, hids⟩ := h
  cases ws with
  | cons w ws => exact ⟨ws, ds, (List.cons.inj hsplit).2, hids⟩
  | nil =>
    cases ds with
    | nil => exact absurd hsplit (by simp)
    | cons d ds =>
      exact ⟨[], ds, (List.cons.inj hsplit).2, fun id sha hm => hids id sha
        (List.mem_cons_of_mem _ hm)⟩

/-- Behind a step on the database there are no writes. -/
theorem Ordered.no_write {repoId : Nat} {d : DbStep} {rest : List (IndexStep Vec)}
    (h : Ordered repoId (.db d :: rest)) (t : WriteStep Vec) : .write t ∉ rest := by
  obtain ⟨ws, ds, hsplit, -⟩ := h
  cases ws with
  | cons w ws => exact absurd (List.cons.inj hsplit).1 (by simp)
  | nil =>
    cases ds with
    | nil => exact absurd hsplit (by simp)
    | cons d' ds =>
      rw [(List.cons.inj hsplit).2]
      simp

theorem Ordered.id_eq {repoId id : Nat} {sha : String} {rest : List (IndexStep Vec)}
    (h : Ordered repoId (.db (.updateHeadSha id sha) :: rest)) : id = repoId := by
  obtain ⟨ws, ds, hsplit, hids⟩ := h
  have hmem : .db (.updateHeadSha id sha) ∈ ws.map IndexStep.write ++ ds.map .db :=
    hsplit ▸ List.mem_cons_self
  refine hids id sha ?_
  simpa using hmem

/-! ## The statement -/

section Statement

variable (workers : Nat → Worker Vec)

/-- Worker `j` indexed the repo `b`, and began after the last graph write of worker `i`. -/
structure Reindexed (s : System Vec) (i b j : Nat) : Prop where
  repo : (workers j).repo.id = b
  began : .started j ∈ s.log
  after : .wrote i ∉ since (.started j) s.log
  updated : .updated j b ∈ s.log
  written : ∀ t, .write t ∉ (s.progress j).remaining

/-- **No reset is lost**: each one still stands or has been answered. -/
def NoLostReset (s : System Vec) : Prop :=
  ∀ i ids b, .reset i ids ∈ s.log → b ∈ ids →
    s.world.db.getRepoHeadSha b = none ∨ ∃ j, Reindexed workers s i b j

/-- The discipline: a worker updates the head of a repo only if no run has reset it since the
    worker began, other than runs whose graph writes were over by then. -/
def guardedUpdate (s : System Vec) : Action → Bool
  | .exec j =>
      match s.progress j with
      | .running (.db (.updateHeadSha b _) :: _) _ =>
          (since (.started j) s.log).all fun
            | .reset i ids => b ∉ ids || .wrote i ∉ since (.started j) s.log
            | _ => true
      | _ => true
  | _ => true

theorem guardedUpdate_spec {s : System Vec} {j b : Nat} {sha : String}
    {rest : List (IndexStep Vec)} {l : Locals} (h : guardedUpdate s (.exec j) = true)
    (hp : s.progress j = .running (.db (.updateHeadSha b sha) :: rest) l) {i : Nat}
    {ids : List Nat} (hreset : .reset i ids ∈ since (.started j) s.log) (hb : b ∈ ids) :
    .wrote i ∉ since (.started j) s.log := by
  simp only [guardedUpdate, hp, List.all_eq_true] at h
  simpa [hb] using h _ hreset

end Statement

/-! ## The invariant -/

section Invariant

variable {workers : Nat → Worker Vec}

/-- The two events of a run that come after its last graph write. -/
def Event.Late : Event → Prop
  | updated _ _ => True
  | reset _ _ => True
  | _ => False

/-- What holds of every state of a guarded run. -/
structure Sound (workers : Nat → Worker Vec) (s : System Vec) : Prop where
  ordered : ∀ i steps l, s.progress i = .running steps l → Ordered (workers i).repo.id steps
  fresh : ∀ i, s.progress i = .waiting → ∀ e ∈ s.log, e.worker ≠ i
  began : ∀ i steps l, s.progress i = .running steps l → .started i ∈ s.log
  behind : ∀ e ∈ s.log, e.Late → .wrote e.worker ∉ since e s.log
  written : ∀ e ∈ s.log, e.Late → ∀ t, .write t ∉ (s.progress e.worker).remaining
  kept : NoLostReset workers s

theorem sound_initial (w : World Vec) : Sound workers (System.initial w) where
  ordered := fun _ _ _ h => absurd h (by simp [System.initial])
  fresh := fun _ _ _ he => absurd he (by simp [System.initial])
  began := fun _ _ _ h => absurd h (by simp [System.initial])
  behind := fun _ he => absurd he (by simp [System.initial])
  written := fun _ he => absurd he (by simp [System.initial])
  kept := fun _ _ _ he => absurd he (by simp [System.initial])

theorem progress_setProgress (s : System Vec) (i j : Nat) (p : Progress Vec) :
    s.setProgress i p j = if j = i then p else s.progress j := by
  unfold System.setProgress
  rw [Function.update_apply]

/-- A worker that has indexed `b` has done so after any further steps, unless the other run
    writes again. -/
theorem Reindexed.mono {s s' : System Vec} {i b j : Nat} (h : Reindexed workers s i b j)
    {es : List Event} (hlog : s'.log = es ++ s.log) (hstart : .started j ∉ es)
    (hwrote : .wrote i ∉ es) (hrest : ∀ t, .write t ∉ (s'.progress j).remaining) :
    Reindexed workers s' i b j where
  repo := h.repo
  began := hlog ▸ List.mem_append_right _ h.began
  after := by
    have hne : ∀ f ∈ es, f ≠ .started j := by
      intro f hf heq
      exact hstart (heq ▸ hf)
    rw [hlog, since_append hne]
    exact fun hmem => (List.mem_append.mp hmem).elim hwrote h.after
  updated := hlog ▸ List.mem_append_right _ h.updated
  written := hrest

theorem Sound.start {s : System Vec} (h : Sound workers s) {i : Nat} {p : Progress Vec}
    (hwait : s.progress i = .waiting)
    (hp : p = .done ∨ ∃ steps, Ordered (workers i).repo.id steps ∧ p = .running steps {}) :
    Sound workers { s with progress := s.setProgress i p, log := .started i :: s.log } := by
  have hnot : p ≠ .waiting := by
    rcases hp with rfl | ⟨steps, -, rfl⟩ <;> simp
  have hother : ∀ e ∈ s.log, e.worker ≠ i := h.fresh i hwait
  constructor
  · intro j steps l hj
    simp only [progress_setProgress] at hj
    split at hj
    · rename_i hji
      subst hji
      rcases hp with rfl | ⟨steps', hord, rfl⟩
      · exact absurd hj (by simp)
      · obtain ⟨rfl, -⟩ := Progress.running.inj hj
        exact hord
    · exact h.ordered j steps l hj
  · intro j hj e he
    simp only [progress_setProgress] at hj
    split at hj
    · exact absurd hj hnot
    · rename_i hji
      cases List.mem_cons.mp he with
      | inl heq => exact heq ▸ Ne.symm hji
      | inr hmem => exact h.fresh j hj e hmem
  · intro j steps l hj
    simp only [progress_setProgress] at hj
    split at hj
    · rename_i hji
      exact hji ▸ List.mem_cons_self
    · exact List.mem_cons_of_mem _ (h.began j steps l hj)
  · intro e he hlate
    have hne : Event.started i ≠ e := fun heq => by rw [← heq] at hlate; exact hlate
    have hmem := (List.mem_cons.mp he).resolve_left (Ne.symm hne)
    rw [since_cons_of_ne hne, List.mem_cons, not_or]
    exact ⟨by simp, h.behind e hmem hlate⟩
  · intro e he hlate
    have hne : e ≠ Event.started i := fun heq => by rw [heq] at hlate; exact hlate
    have hmem := (List.mem_cons.mp he).resolve_left hne
    simp only [progress_setProgress, if_neg (hother e hmem)]
    exact h.written e hmem hlate
  · intro i' ids b hreset hb
    have hmem : Event.reset i' ids ∈ s.log := (List.mem_cons.mp hreset).resolve_left (by simp)
    cases h.kept i' ids b hmem hb with
    | inl hnull => exact Or.inl hnull
    | inr hex =>
      obtain ⟨j, hj⟩ := hex
      have hji : j ≠ i := hother _ hj.updated
      refine Or.inr ⟨j, hj.mono (show _ = [Event.started i] ++ s.log from rfl) ?_ (by simp) ?_⟩
      · simpa using hji
      · simpa only [progress_setProgress, if_neg hji] using hj.written

theorem Sound.stop {s : System Vec} (h : Sound workers s) (i : Nat) :
    Sound workers { s with progress := s.setProgress i .done } := by
  have hsome : ∀ j q, s.setProgress i .done j = q → q ≠ .done → s.progress j = q := by
    intro j q hj hq
    rw [progress_setProgress] at hj
    split at hj
    · exact absurd hj.symm hq
    · exact hj
  have hrest : ∀ j t, .write t ∉ (s.progress j).remaining →
      .write t ∉ (s.setProgress i .done j).remaining := by
    intro j t hj
    rw [progress_setProgress]
    split
    · simp [Progress.remaining]
    · exact hj
  constructor
  · exact fun j steps l hj => h.ordered j steps l (hsome j _ hj (by simp))
  · exact fun j hj => h.fresh j (hsome j _ hj (by simp))
  · exact fun j steps l hj => h.began j steps l (hsome j _ hj (by simp))
  · exact h.behind
  · exact fun e he hlate t => hrest e.worker t (h.written e he hlate t)
  · intro i' ids b hreset hb
    cases h.kept i' ids b hreset hb with
    | inl hnull => exact Or.inl hnull
    | inr hex =>
      obtain ⟨j, hj⟩ := hex
      exact Or.inr ⟨j, hj.mono (show _ = [] ++ s.log from rfl) (by simp) (by simp)
        fun t => hrest j t (hj.written t)⟩

/-! ### A transaction -/

section Exec

variable {i : Nat} {t : IndexStep Vec} {l : Locals}

theorem worker_of_mem_events {e : Event} (h : e ∈ t.events i l) : e.worker = i := by
  rcases t with _ | (_ | _ | _ | _) <;> simp [IndexStep.events] at h <;> rw [h] <;> rfl

theorem started_notMem_events (j : Nat) : .started j ∉ t.events i l := by
  rcases t with _ | (_ | _ | _ | _) <;> simp [IndexStep.events]

theorem of_wrote_mem_events {j : Nat} (h : .wrote j ∈ t.events i l) :
    j = i ∧ ∃ st, t = .write st := by
  rcases t with st | (_ | _ | _ | _) <;> simp [IndexStep.events] at h
  exact ⟨h, st, rfl⟩

theorem of_late_mem_events {e : Event} (h : e ∈ t.events i l) (hlate : e.Late) :
    t.events i l = [e] ∧ ∃ d, t = .db d := by
  rcases t with st | d
  · simp only [IndexStep.events, List.mem_singleton] at h
    rw [h] at hlate
    exact absurd hlate (by simp [Event.Late])
  · cases d <;> simp [IndexStep.events] at h ⊢ <;> exact h.symm

variable {s : System Vec} {rest : List (IndexStep Vec)} {l' : Locals} {w : World Vec}

/-- A run that has something late behind it writes no more, whoever steps. -/
theorem Sound.wrote_notMem_events (h : Sound workers s) (hp : s.progress i = .running (t :: rest) l)
    {e : Event} (he : e ∈ s.log) (hlate : e.Late) : .wrote e.worker ∉ t.events i l := by
  intro hmem
  obtain ⟨hi, st, rfl⟩ := of_wrote_mem_events hmem
  have hno := h.written e he hlate st
  rw [hi, hp] at hno
  exact hno List.mem_cons_self

theorem Sound.rest_written (h : Sound workers s) (hp : s.progress i = .running (t :: rest) l)
    (l' : Locals) {e : Event} (he : e ∈ t.events i l ++ s.log) (hlate : e.Late) (st : WriteStep Vec) :
    .write st ∉ (s.setProgress i (.running rest l') e.worker).remaining := by
  rw [progress_setProgress]
  cases List.mem_append.mp he with
  | inl hnew =>
    obtain ⟨-, d, rfl⟩ := of_late_mem_events hnew hlate
    rw [if_pos (worker_of_mem_events hnew)]
    exact (h.ordered i _ l hp).no_write st
  | inr hold =>
    have hno := h.written e hold hlate st
    split
    · rename_i hi
      rw [hi, hp] at hno
      exact fun hmem => hno (List.mem_cons_of_mem _ hmem)
    · exact hno

/-- What a transaction may do to a stored head: leave it, clear it, or set that of the repo
    that is indexed. -/
theorem getRepoHeadSha_exec (hord : Ordered (workers i).repo.id (t :: rest))
    (ht : t.exec (l, s.world) = .ok (l', w)) {b : Nat}
    (hnull : s.world.db.getRepoHeadSha b = none) :
    w.db.getRepoHeadSha b = none ∨
      (b = (workers i).repo.id ∧ ∃ sha, t = .db (.updateHeadSha b sha)) := by
  rcases t with st | d
  · obtain ⟨-, rfl⟩ := Prod.mk.inj (Except.ok.inj ht)
    exact Or.inl hnull
  · cases d with
    | updateHeadSha id sha =>
      simp only [IndexStep.exec, DbStep.exec] at ht
      cases hdb : s.world.db.updateRepoHeadSha id sha with
      | error e => rw [hdb] at ht; exact absurd ht (by simp)
      | ok db =>
        rw [hdb] at ht
        obtain ⟨-, rfl⟩ := Prod.mk.inj (Except.ok.inj ht)
        by_cases hb : b = id
        · subst hb
          exact Or.inr ⟨hord.id_eq, sha, rfl⟩
        · refine Or.inl ?_
          rw [Db.getRepoHeadSha_updateRepoHeadSha hdb, if_neg hb]
          exact hnull
    | findDependentRepos version changed own =>
      obtain ⟨-, rfl⟩ := Prod.mk.inj (Except.ok.inj ht)
      exact Or.inl hnull
    | getRepoIds =>
      obtain ⟨-, rfl⟩ := Prod.mk.inj (Except.ok.inj ht)
      exact Or.inl hnull
    | resetHeadSha =>
      obtain ⟨-, rfl⟩ := Prod.mk.inj (Except.ok.inj ht)
      refine Or.inl ?_
      rw [Db.getRepoHeadSha_resetHeadSha, hnull]
      exact ite_self _

theorem Sound.exec (h : Sound workers s) (hguard : guardedUpdate s (.exec i) = true)
    (hp : s.progress i = .running (t :: rest) l) (ht : t.exec (l, s.world) = .ok (l', w)) :
    Sound workers ⟨w, s.setProgress i (.running rest l'), t.events i l ++ s.log⟩ := by
  have hord := h.ordered i _ l hp
  have hbehind : ∀ e ∈ s.log, e.Late → .wrote e.worker ∉ t.events i l :=
    fun e he hlate => h.wrote_notMem_events hp he hlate
  constructor
  · intro j steps l'' hj
    simp only [progress_setProgress] at hj
    split at hj
    · rename_i hji
      obtain ⟨rfl, -⟩ := Progress.running.inj hj
      exact hji ▸ hord.tail
    · exact h.ordered j steps l'' hj
  · intro j hj e he
    simp only [progress_setProgress] at hj
    split at hj
    · exact absurd hj (by simp)
    · rename_i hji
      cases List.mem_append.mp he with
      | inl hnew => exact (worker_of_mem_events hnew) ▸ Ne.symm hji
      | inr hold => exact h.fresh j hj e hold
  · intro j steps l'' hj
    simp only [progress_setProgress] at hj
    split at hj
    · rename_i hji
      exact List.mem_append_right _ (hji ▸ h.began i _ l hp)
    · exact List.mem_append_right _ (h.began j steps l'' hj)
  · intro e he hlate
    by_cases hnew : e ∈ t.events i l
    · rw [(of_late_mem_events hnew hlate).1, List.singleton_append, since_cons_self]
      simp
    · have hold := (List.mem_append.mp he).resolve_left hnew
      have hne : ∀ f ∈ t.events i l, f ≠ e := by
        intro f hf heq
        exact hnew (heq ▸ hf)
      rw [since_append hne, List.mem_append, not_or]
      exact ⟨hbehind e hold hlate, h.behind e hold hlate⟩
  · exact fun e he hlate st => h.rest_written hp l' he hlate st
  · intro i' ids b hreset hb
    cases List.mem_append.mp hreset with
    | inl hnew =>
      obtain ⟨-, d, rfl⟩ := of_late_mem_events hnew trivial
      cases d <;> simp [IndexStep.events] at hnew
      obtain ⟨-, rfl⟩ := hnew
      obtain ⟨-, rfl⟩ := Prod.mk.inj (Except.ok.inj ht)
      exact Or.inl (by rw [Db.getRepoHeadSha_resetHeadSha, if_pos hb])
    | inr hold =>
      cases h.kept i' ids b hold hb with
      | inl hnull =>
        rcases getRepoHeadSha_exec hord ht hnull with hnull' | ⟨hbi, sha, rfl⟩
        · exact Or.inl hnull'
        · -- the update of `b` answers the reset: by the guard, or because it came before `i` began
          refine Or.inr ⟨i, hbi.symm, List.mem_append_right _ (h.began i _ l hp), ?_,
            List.mem_append_left _ List.mem_cons_self, ?_⟩
          · rw [since_append fun f hf heq => started_notMem_events i (heq ▸ hf), List.mem_append,
              not_or]
            refine ⟨hbehind _ hold trivial, ?_⟩
            by_cases hin : .reset i' ids ∈ since (.started i) s.log
            · exact guardedUpdate_spec hguard hp hin hb
            · exact fun hw => h.behind _ hold trivial (mem_since_of_notMem hold hin hw)
          · intro st
            simp only [progress_setProgress, if_pos]
            exact hord.no_write st
      | inr hex =>
        obtain ⟨j, hj⟩ := hex
        have hrest := h.rest_written hp l'
          (List.mem_append_right (t.events i l) hj.updated) trivial
        exact Or.inr ⟨j, hj.mono rfl (started_notMem_events j) (hbehind _ hold trivial) hrest⟩

end Exec

theorem Sound.step {s s' : System Vec} {a : Action} (hstep : s.step workers a = some s')
    (hguard : guardedUpdate s a = true) (h : Sound workers s) : Sound workers s' := by
  rcases System.step_cases workers hstep with ⟨i, p, rfl, hwait, hp, rfl⟩ |
    ⟨i, steps, l, -, rfl⟩ | ⟨i, t, rest, l, l', w, rfl, hp, ht, rfl⟩
  · refine h.start hwait ?_
    rcases hp with rfl | ⟨plan, hplan, rfl⟩
    · exact Or.inl rfl
    · exact Or.inr ⟨plan.steps, ordered_of_plan hplan, rfl⟩
  · exact h.stop i
  · exact h.exec hguard hp ht

end Invariant

def crossingManifest (dir : String) (depends : List String) : ManifestFile where
  dir := [dir]
  manifest := some { version := "17.0.1.0.0", depends }

def crossingCheckout (head dir : String) (depends : List String) : Checkout where
  head := .completed 0 head
  ancestry := fun _ => .completed 0 ""
  diff := fun _ => ⟨[.file [dir, "models", "x.py"]], .printed⟩
  files := [[dir, "__manifest__.py"]]
  manifests := [crossingManifest dir depends]
  parse := Parsed.empty

def crossingWorkers : Nat → Worker Unit
  | 0 => ⟨⟨1, "/srv/a", "17.0"⟩, crossingCheckout "a1" "base" [], {}⟩
  | _ => ⟨⟨2, "/srv/b", "17.0"⟩, crossingCheckout "b1" "sale" ["base"], {}⟩

def crossingRow (localPath headSha : String) : RepoRow where
  profileId := 1
  url := ""
  branch := "17.0"
  localPath := localPath
  headSha := some headSha

def crossingSale : ModuleProps := { repo := some "b", path := some "/srv/b/sale" }

def crossingGraph : Graph where
  modules := AList.insert ⟨"sale", "17.0"⟩ crossingSale ∅
  dependsOn := {(⟨"sale", "17.0"⟩, ⟨"base", "17.0"⟩)}

def crossingWorld : World Unit where
  index := { graph := crossingGraph }
  db := { repos := AList.insert 2 (crossingRow "/srv/b" "b0")
            (AList.insert 1 (crossingRow "/srv/a" "a0") ∅) }

/-- Both read their row, the first runs to its end, and then the second does. -/
def crossing : List Action :=
  [.start 1, .start 0] ++ List.replicate 8 (.exec 0) ++ List.replicate 8 (.exec 1)

def crossingEnd : Option (System Unit) :=
  replay (System.step crossingWorkers) (fun _ _ => true) crossing (System.initial crossingWorld)

theorem log_crossingEnd : crossingEnd.map (·.log) = some
    [.reset 1 [], .updated 1 2, .wrote 1, .wrote 1, .wrote 1,
      .reset 0 [2], .updated 0 1, .wrote 0, .wrote 0, .wrote 0, .started 0, .started 1] := by
  decide

end OdooSemantic
