import OdooSemantic.Cloner.Main
import OdooSemantic.Lib.Machine

/-!
# What becomes of a clone

If one process has cloned the repo, the repo is `cloned` in the end, its path is the target, and
the checkout is there: in every run in which nobody writes `pending` or `error` behind a success,
nobody's `git` comes into a directory that another one has begun to fill, and nothing is raised
between a clone and the two writes behind it (`clone_status_law`).

None of this is seen to. A process that was started earlier finds the directory of the first and
calls that an error (`TwoCloners`).
-/

namespace OdooSemantic

namespace ClonerPhase

/-- `git clone` has come to a good end. -/
def hasCloned : ClonerPhase → Bool
  | complete _ | registered _ | exited 0 => true
  | _ => false

def isCloning : ClonerPhase → Bool
  | cloning _ _ => true
  | _ => false

/-- What comes next is `pending` or `error`. -/
def setsStatus : ClonerPhase → Bool
  | ready | misconfigured | failed _ => true
  | _ => false

/-- The directory that the process is about. -/
def target : ClonerPhase → Option String
  | located p | keyed p | clear p | looked p _ | cloning p _ | complete p | registered p => some p
  | _ => none

end ClonerPhase

namespace Clones

variable {T : Type} [DecidableEq T] {job : CloneJob}

structure Orderly (s : Clones T) (a : CloneStep T) : Prop where
  status : (s.phase a.thread).setsStatus = true → a.answer = .done → ∀ u, s.phase u ≠ .exited 0
  dir : ∀ target, s.phase a.thread = .looked target true → a.answer = .done →
    s.dir.isNonempty = false
  writes : (s.phase a.thread).hasCloned = true → ∀ text, a.answer ≠ .raised text

section Become

variable (s : Clones T) (t : T) (phase : ClonerPhase)

@[simp] theorem phase_become_self : (s.become t phase).phase t = phase := by simp [become]

theorem phase_become_ne {u : T} (hu : u ≠ t) : (s.become t phase).phase u = s.phase u := by
  simp [become, hu]

end Become

/-! ## What a step can do -/

/-- **What a step can do to the row and the directory.** -/
inductive Moves (job : CloneJob) (s : Clones T) (a : CloneStep T) (s' : Clones T) : Prop
  | turns {p : ClonerPhase} (hs' : s' = s.become a.thread p) (hcloned : p.hasCloned = false)
      (hcloning : p.isCloning = false) (hbefore : (s.phase a.thread).hasCloned = false)
      (htarget : ∀ target, p.target = some target →
        job.target = some target ∨ (s.phase a.thread).target = some target)
  | marks {p : ClonerPhase} {status : CloneStatus} {msg : Option String}
      (hs' : s' = (s.setCloneStatus status msg).become a.thread p)
      (hcloned : p.hasCloned = false) (hcloning : p.isCloning = false) (htarget : p.target = none)
      (hbefore : (s.phase a.thread).setsStatus = true) (hanswer : a.answer = .done)
  | enters {target : String} {existed : Bool} (hbefore : s.phase a.thread = .looked target existed)
      (hanswer : a.answer = .done) (hdir : existed = true ∨ s.dir = .absent)
      (hs' : s' = { s.become a.thread (.cloning target existed) with dir := .files })
  | clears {target text : String} {existed : Bool} {dir : CloneDir}
      (hbefore : s.phase a.thread = .cloning target existed)
      (hs' : s' = { s.become a.thread (.failed text) with dir := dir })
  | completes {target : String} {existed : Bool}
      (hbefore : s.phase a.thread = .cloning target existed)
      (hs' : s' = { s.become a.thread (.complete target) with dir := .checkout })
  | registers {target : String} (hbefore : s.phase a.thread = .complete target)
      (hs' : s' = { s.become a.thread (.registered target) with localPath := target })
  | succeeds {target : String} (hbefore : s.phase a.thread = .registered target)
      (hs' : s' = (s.setCloneStatus .cloned none).become a.thread (.exited 0))
  | drops {text : String} (hbefore : (s.phase a.thread).hasCloned = true)
      (hanswer : a.answer = .raised text)

variable {s s' : Clones T} {a : CloneStep T}

theorem moves_cloneRepo {phase : ClonerPhase} (hphase : s.phase a.thread = phase)
    (hanswer : a.answer = .done) (h : s.cloneRepo a.thread phase = some s') :
    s.Moves job a s' := by
  unfold cloneRepo at h
  split at h
  · split at h
    · obtain rfl := Option.some.inj h
      exact .turns rfl rfl rfl (by rw [hphase]; rfl) (by simp [ClonerPhase.target])
    · obtain rfl := Option.some.inj h
      exact .turns rfl rfl rfl (by rw [hphase]; rfl) fun _ ht => Or.inr (by rw [hphase]; exact ht)
  · split at h
    · obtain rfl := Option.some.inj h
      exact .turns rfl rfl rfl (by rw [hphase]; rfl) (by simp [ClonerPhase.target])
    · obtain rfl := Option.some.inj h
      exact .turns rfl rfl rfl (by rw [hphase]; rfl) fun _ ht => Or.inr (by rw [hphase]; exact ht)
  · split at h
    · rename_i hdir
      obtain rfl := Option.some.inj h
      exact .enters hphase hanswer (by simpa using hdir) rfl
    · obtain rfl := Option.some.inj h
      exact .turns rfl rfl rfl (by rw [hphase]; rfl) (by simp [ClonerPhase.target])
  · split at h
    · obtain rfl := Option.some.inj h
      exact .completes hphase rfl
    · exact absurd h (by simp)
  · exact absurd h (by simp)

theorem step_moves (h : s.step job a = some s') : s.Moves job a s' := by
  unfold step at h
  split at h
  case h_1 hphase _ =>
    obtain rfl := Option.some.inj h
    exact .turns rfl rfl rfl (by rw [hphase]; rfl) (by simp [ClonerPhase.target])
  case h_2 hphase _ =>
    obtain rfl := Option.some.inj h
    refine .turns rfl ?_ ?_ (by rw [hphase]; rfl) ?_ <;> split <;> simp [ClonerPhase.hasCloned,
      ClonerPhase.isCloning, ClonerPhase.target]
  case h_3 hphase hanswer | h_4 hphase hanswer | h_7 hphase hanswer =>
    obtain rfl := Option.some.inj h
    exact .marks rfl rfl rfl rfl (by rw [hphase]; rfl) hanswer
  case h_5 hphase _ =>
    split at h
    · rename_i target htarget
      obtain rfl := Option.some.inj h
      refine .turns rfl rfl rfl (by rw [hphase]; rfl) fun p hp => Or.inl ?_
      rw [htarget, ← hp]
      rfl
    · obtain rfl := Option.some.inj h
      exact .turns rfl rfl rfl (by rw [hphase]; rfl) (by simp [ClonerPhase.target])
  case h_6 hphase _ =>
    obtain rfl := Option.some.inj h
    exact .turns rfl rfl rfl (by rw [hphase]; rfl) fun _ ht => Or.inr (by rw [hphase]; exact ht)
  case h_8 hphase _ =>
    obtain rfl := Option.some.inj h
    exact .registers hphase rfl
  case h_9 hphase _ =>
    obtain rfl := Option.some.inj h
    exact .succeeds hphase rfl
  case h_10 hanswer _ _ _ _ _ _ _ _ => exact moves_cloneRepo rfl hanswer h
  case h_11 hphase _ | h_12 hphase _ | h_14 hphase _ =>
    obtain rfl := Option.some.inj h
    exact .turns rfl rfl rfl (by rw [hphase]; rfl) (by simp [ClonerPhase.target])
  case h_13 hphase _ =>
    obtain rfl := Option.some.inj h
    exact .clears hphase rfl
  case h_15 text hanswer =>
    split at h
    · exact absurd h (by simp)
    · obtain rfl := Option.some.inj h
      cases hcloned : (s.phase a.thread).hasCloned with
      | true => exact .drops hcloned hanswer
      | false =>
        refine .turns rfl ?_ ?_ hcloned ?_ <;> split <;> simp [ClonerPhase.hasCloned,
          ClonerPhase.isCloning, ClonerPhase.target]
  case h_16 => exact absurd h (by simp)

/-! ## What the steps keep -/

/-- The row and the directory are as a process in this phase has left them. -/
structure Fits (job : CloneJob) (s : Clones T) (p : ClonerPhase) : Prop where
  cloning : p.isCloning = true → s.dir = .files
  cloned : p.hasCloned = true → s.dir = .checkout
  target : ∀ q, p.target = some q → job.target = some q
  registered : ∀ q, p = .registered q → s.localPath = q
  exited : p = .exited 0 → s.status = .cloned ∧ job.target = some s.localPath

omit [DecidableEq T] in
/-- A process that neither clones nor has cloned. -/
theorem Fits.of_outside {p : ClonerPhase} (hcloned : p.hasCloned = false)
    (hcloning : p.isCloning = false) (htarget : ∀ q, p.target = some q → job.target = some q) :
    s.Fits job p where
  cloning h := absurd h (by simp [hcloning])
  cloned h := absurd h (by simp [hcloned])
  target := htarget
  registered q h := by
    subst h
    exact absurd hcloned (by simp [ClonerPhase.hasCloned])
  exited h := by
    subst h
    exact absurd hcloned (by simp [ClonerPhase.hasCloned])

/-- **Who clones has the directory to himself, and who has cloned is not undone.** -/
structure Safe (job : CloneJob) (s : Clones T) : Prop where
  fits : ∀ t, s.Fits job (s.phase t)
  alone : ∀ t u, (s.phase t).isCloning = true → (s.phase u).isCloning = true → t = u

omit [DecidableEq T] in
/-- Nobody has cloned while somebody clones. -/
theorem Safe.not_hasCloned (h : s.Safe job) {t : T} (ht : (s.phase t).isCloning = true) (u : T) :
    (s.phase u).hasCloned = false := by
  cases hu : (s.phase u).hasCloned with
  | false => rfl
  | true => exact absurd (((h.fits t).cloning ht).symm.trans ((h.fits u).cloned hu)) (by simp)

omit [DecidableEq T] in
/-- Where there are no files, nobody has begun. -/
theorem Safe.untouched (h : s.Safe job) (hdir : s.dir.isNonempty = false) (u : T) :
    (s.phase u).isCloning = false ∧ (s.phase u).hasCloned = false := by
  constructor
  · cases hu : (s.phase u).isCloning with
    | false => rfl
    | true =>
      rw [(h.fits u).cloning hu] at hdir
      exact absurd hdir (by simp [CloneDir.isNonempty])
  · cases hu : (s.phase u).hasCloned with
    | false => rfl
    | true =>
      rw [(h.fits u).cloned hu] at hdir
      exact absurd hdir (by simp [CloneDir.isNonempty])

/-- Somebody's new phase, and the phases of the others. -/
theorem forall_become {t : T} {p : ClonerPhase} {Q : T → ClonerPhase → Prop} (hp : Q t p)
    (hrest : ∀ u, u ≠ t → Q u (s.phase u)) : ∀ u, Q u ((s.become t p).phase u) := by
  intro u
  by_cases hu : u = t
  · subst hu
    rw [phase_become_self]
    exact hp
  · rw [phase_become_ne _ _ _ hu]
    exact hrest u hu

/-- One process goes on, and the row and the directory fit all of them. -/
theorem Safe.of_become {t : T} {p : ClonerPhase} (hphase : s'.phase = (s.become t p).phase)
    (hp : s'.Fits job p) (hrest : ∀ u, u ≠ t → s'.Fits job (s.phase u))
    (halone : ∀ u v, u ≠ t → v ≠ t → (s.phase u).isCloning = true →
      (s.phase v).isCloning = true → u = v)
    (hcloning : p.isCloning = true → ∀ u, u ≠ t → (s.phase u).isCloning = false) :
    s'.Safe job := by
  refine ⟨by rw [hphase]; exact forall_become (Q := fun _ q => s'.Fits job q) hp hrest, ?_⟩
  intro u v
  rw [hphase]
  by_cases hu : u = t <;> by_cases hv : v = t
  · intro _ _
    rw [hu, hv]
  · rw [hu, phase_become_self, phase_become_ne _ _ _ hv]
    intro hp hcl
    exact absurd hcl (by simp [hcloning hp v hv])
  · rw [hv, phase_become_self, phase_become_ne _ _ _ hu]
    intro hcl hp
    exact absurd hcl (by simp [hcloning hp u hu])
  · rw [phase_become_ne _ _ _ hu, phase_become_ne _ _ _ hv]
    exact halone u v hu hv

theorem safe_step (hstep : s.step job a = some s') (horderly : s.Orderly a) (h : s.Safe job) :
    s'.Safe job := by
  have halone : ∀ u v, u ≠ a.thread → v ≠ a.thread → (s.phase u).isCloning = true →
      (s.phase v).isCloning = true → u = v := fun u v _ _ => h.alone u v
  cases step_moves hstep with
  | @turns p hs' hcloned hcloning hbefore htarget =>
    subst hs'
    refine Safe.of_become rfl (.of_outside hcloned hcloning fun q hq => ?_) ?_ halone ?_
    · exact (htarget q hq).elim id ((h.fits a.thread).target q)
    · intro u _
      exact ⟨(h.fits u).cloning, (h.fits u).cloned, (h.fits u).target, (h.fits u).registered,
        (h.fits u).exited⟩
    · intro hcl
      exact absurd hcl (by simp [hcloning])
  | marks hs' hcloned hcloning htarget hbefore hanswer =>
    -- nobody has come to his end yet, so the status is not owed to anyone
    subst hs'
    refine Safe.of_become rfl (.of_outside hcloned hcloning (by simp [htarget])) ?_ halone ?_
    · intro u _
      exact ⟨(h.fits u).cloning, (h.fits u).cloned, (h.fits u).target, (h.fits u).registered,
        fun hu => absurd hu (horderly.status hbefore hanswer u)⟩
    · intro hcl
      exact absurd hcl (by simp [hcloning])
  | @enters target existed hbefore hanswer hdir hs' =>
    have hempty : s.dir.isNonempty = false := by
      cases hdir with
      | inl hexisted =>
        subst hexisted
        exact horderly.dir target hbefore hanswer
      | inr habsent => rw [habsent]; rfl
    have htarget := (h.fits a.thread).target target (by rw [hbefore]; rfl)
    subst hs'
    refine Safe.of_become (p := .cloning target existed) rfl ?_ ?_ halone ?_
    · exact ⟨fun _ => rfl, by simp [ClonerPhase.hasCloned],
        by simpa [ClonerPhase.target] using htarget, by simp, by simp⟩
    · intro u _
      have hu := h.untouched hempty u
      exact .of_outside hu.2 hu.1 (h.fits u).target
    · intro _ u _
      exact (h.untouched hempty u).1
  | clears hbefore hs' =>
    have hcloning : (s.phase a.thread).isCloning = true := by rw [hbefore]; rfl
    subst hs'
    refine Safe.of_become rfl (.of_outside rfl rfl (by simp [ClonerPhase.target])) ?_ halone ?_
    · intro u hu
      refine .of_outside (h.not_hasCloned hcloning u) ?_ (h.fits u).target
      cases hcl : (s.phase u).isCloning with
      | false => rfl
      | true => exact absurd (h.alone u a.thread hcl hcloning) hu
    · intro hcl
      exact absurd hcl (by simp [ClonerPhase.isCloning])
  | @completes target _ hbefore hs' =>
    have hcloning : (s.phase a.thread).isCloning = true := by rw [hbefore]; rfl
    have htarget := (h.fits a.thread).target target (by rw [hbefore]; rfl)
    subst hs'
    refine Safe.of_become (p := .complete target) rfl ?_ ?_ halone ?_
    · exact ⟨by simp [ClonerPhase.isCloning], fun _ => rfl,
        by simpa [ClonerPhase.target] using htarget, by simp, by simp⟩
    · intro u hu
      refine .of_outside (h.not_hasCloned hcloning u) ?_ (h.fits u).target
      cases hcl : (s.phase u).isCloning with
      | false => rfl
      | true => exact absurd (h.alone u a.thread hcl hcloning) hu
    · intro hcl
      exact absurd hcl (by simp [ClonerPhase.isCloning])
  | @registers target hbefore hs' =>
    have htarget := (h.fits a.thread).target target (by rw [hbefore]; rfl)
    have hdir := (h.fits a.thread).cloned (by rw [hbefore]; rfl)
    subst hs'
    refine Safe.of_become (p := .registered target) rfl ?_ ?_ halone ?_
    · exact ⟨by simp [ClonerPhase.isCloning], fun _ => hdir,
        by simpa [ClonerPhase.target] using htarget, by simp, by simp⟩
    · intro u _
      refine ⟨(h.fits u).cloning, (h.fits u).cloned, (h.fits u).target, fun q hq => ?_, fun hu =>
        ⟨((h.fits u).exited hu).1, htarget⟩⟩
      exact Option.some.inj (htarget.symm.trans ((h.fits u).target q (by rw [hq]; rfl)))
    · intro hcl
      exact absurd hcl (by simp [ClonerPhase.isCloning])
  | @succeeds target hbefore hs' =>
    have htarget := (h.fits a.thread).target target (by rw [hbefore]; rfl)
    have hpath := (h.fits a.thread).registered target hbefore
    have hdir := (h.fits a.thread).cloned (by rw [hbefore]; rfl)
    subst hs'
    refine Safe.of_become (p := .exited 0) rfl ?_ ?_ halone ?_
    · exact ⟨by simp [ClonerPhase.isCloning], fun _ => hdir, by simp [ClonerPhase.target],
        by simp, fun _ => ⟨rfl, by rw [htarget, ← hpath]; rfl⟩⟩
    · intro u _
      exact ⟨(h.fits u).cloning, (h.fits u).cloned, (h.fits u).target, (h.fits u).registered,
        fun hu => ⟨rfl, ((h.fits u).exited hu).2⟩⟩
    · intro hcl
      exact absurd hcl (by simp [ClonerPhase.isCloning])
  | drops hbefore hanswer => exact absurd hanswer (horderly.writes hbefore _)

/-- Who has cloned goes on to his end. -/
theorem hasCloned_step (hstep : s.step job a = some s') (horderly : s.Orderly a) {t : T}
    (ht : (s.phase t).hasCloned = true) : (s'.phase t).hasCloned = true := by
  have hother : ∀ p, s'.phase = (s.become a.thread p).phase →
      (t = a.thread → p.hasCloned = true) → (s'.phase t).hasCloned = true := by
    intro p hphase hp
    rw [hphase]
    by_cases hta : t = a.thread
    · rw [hta, phase_become_self]
      exact hp hta
    · rw [phase_become_ne _ _ _ hta]
      exact ht
  cases step_moves hstep with
  | turns hs' _ _ hbefore _ =>
    refine hother _ (by rw [hs']) fun hta => ?_
    rw [hta, hbefore] at ht
    exact absurd ht (by simp)
  | marks hs' _ _ _ hbefore _ =>
    refine hother _ (by rw [hs']; rfl) fun hta => ?_
    rw [hta] at ht
    cases hphase : s.phase a.thread <;>
      simp_all [ClonerPhase.hasCloned, ClonerPhase.setsStatus]
  | enters hbefore _ _ hs' | clears hbefore hs' =>
    refine hother _ (by rw [hs']) fun hta => ?_
    rw [hta, hbefore] at ht
    exact absurd ht (by simp [ClonerPhase.hasCloned])
  | completes _ hs' | registers _ hs' => exact hother _ (by rw [hs']) fun _ => rfl
  | succeeds _ hs' => exact hother _ (by rw [hs']; rfl) fun _ => rfl
  | drops hbefore hanswer => exact absurd hanswer (horderly.writes hbefore _)

omit [DecidableEq T] in
theorem safe_start (hstart : ∀ t, s.phase t = .idle) : s.Safe job where
  fits t := by
    rw [hstart t]
    exact .of_outside rfl rfl (by simp [ClonerPhase.target])
  alone t u ht _ := by
    rw [hstart t] at ht
    exact absurd ht (by simp [ClonerPhase.isCloning])

end Clones

open Machine Clones in
/-- **Whoever has cloned, the checkout stays from then on, and once he has come to his end the repo
    is `cloned` and its path is the target**: in every run in which no `pending` or `error` is
    written behind a success, every `git` that found an empty directory finds it empty still, and
    nothing is raised between a clone and the writes behind it. -/
theorem clone_status_law {T : Type} [DecidableEq T] {job : CloneJob} {start s : Clones T}
    (hstart : ∀ t, start.phase t = .idle) {as : List (CloneStep T)}
    (hrun : Runs (step job) Orderly start as s) {t : T} (ht : (s.phase t).hasCloned = true) :
    s.dir = .checkout ∧
      ∀ {more : List (CloneStep T)} {s' : Clones T}, Runs (step job) Orderly s more s' →
        (s'.phase t).hasCloned = true ∧ s'.dir = .checkout ∧
          ((s'.phase t).isAtRest = true →
            s'.status = .cloned ∧ job.target = some s'.localPath) := by
  have hsafe : s.Safe job :=
    hrun.invariant (fun _ _ _ hstep hok h => safe_step hstep hok h) (safe_start hstart)
  refine ⟨(hsafe.fits t).cloned ht, fun {_ s'} hmore => ?_⟩
  have hsafe' : s'.Safe job := hmore.invariant (fun _ _ _ hstep hok h => safe_step hstep hok h) hsafe
  have ht' : (s'.phase t).hasCloned = true :=
    hmore.invariant (fun _ _ _ hstep hok h => hasCloned_step hstep hok h) ht
  refine ⟨ht', (hsafe'.fits t).cloned ht', fun hrest => (hsafe'.fits t).exited ?_⟩
  revert ht' hrest
  cases s'.phase t with
  | exited code =>
    cases code with
    | zero => intro _ _; rfl
    | succ n => intro h; exact absurd h (by simp [ClonerPhase.hasCloned])
  | _ => simp [ClonerPhase.hasCloned, ClonerPhase.isAtRest]

/-! ## Two processes -/

namespace TwoCloners

open Clones

def job : CloneJob where
  url := "https://github.com/viindoo/web.git"
  branch := "17.0"
  profileName := "odoo17"
  base := .ofText "/srv/clones"

/-- As many steps in a row, all of them good. -/
def steps (t : Bool) (n : Nat) : List (CloneStep Bool) := List.replicate n { thread := t }

def after (start : Clones Bool) (acts : List (CloneStep Bool)) : Clones Bool :=
  (Machine.replay (step job) (fun _ _ => true) acts start).getD start

theorem run_after {start : Clones Bool} {acts : List (CloneStep Bool)}
    (h : (Machine.replay (step job) (fun _ _ => true) acts start).isSome) :
    Machine.Runs (step job) (fun _ _ => True) start acts (after start acts) := by
  obtain ⟨s, hs⟩ := Option.isSome_iff_exists.mp h
  exact Machine.runs_getD hs start

/-- The good steps that are `Orderly`. -/
def isOrderly (s : Clones Bool) (a : CloneStep Bool) : Bool :=
  decide (a.answer = .done) &&
    (!(s.phase a.thread).setsStatus ||
      decide (s.phase true ≠ .exited 0) && decide (s.phase false ≠ .exited 0)) &&
    match s.phase a.thread with
    | .looked _ true => !s.dir.isNonempty
    | _ => true

theorem orderly_of_isOrderly {s : Clones Bool} {a : CloneStep Bool} (h : isOrderly s a = true) :
    s.Orderly a := by
  unfold isOrderly at h
  rw [Bool.and_eq_true, Bool.and_eq_true] at h
  obtain ⟨⟨hdone, hstatus⟩, hdir⟩ := h
  refine ⟨fun hsets _ u => ?_, fun target hphase _ => ?_, fun _ text hraised => ?_⟩
  · rw [hsets] at hstatus
    cases u <;> simp_all
  · rw [hphase] at hdir
    simpa using hdir
  · rw [of_decide_eq_true hdone] at hraised
    exact absurd hraised (by simp)

theorem orderly_after (start : Clones Bool) (acts : List (CloneStep Bool))
    (h : (Machine.replay (step job) isOrderly acts start).isSome) :
    Machine.Runs (step job) Orderly start acts
      ((Machine.replay (step job) isOrderly acts start).getD start) := by
  obtain ⟨s, hs⟩ := Option.isSome_iff_exists.mp h
  rw [hs]
  exact (Machine.runs_of_replay hs).imp fun _ _ => orderly_of_isOrderly

/-- One of them has cloned before the other one is started, which stops at the row. -/
theorem clone_status_in_turn : ∃ s s' : Clones Bool,
    Machine.Runs (step job) Orderly {} (steps false 8) s ∧
      Machine.Runs (step job) Orderly s (steps false 2 ++ steps true 1) s' ∧
      (s'.phase false).isAtRest = true ∧ s'.status = .cloned ∧
      job.target = some s'.localPath ∧ s'.dir = .checkout := by
  have hrun := orderly_after {} (steps false 8) rfl
  have hmore := orderly_after ((Machine.replay (step job) isOrderly (steps false 8) {}).getD {})
    (steps false 2 ++ steps true 1) rfl
  obtain ⟨_, hdir, hend⟩ := (clone_status_law (fun _ => rfl) hrun (t := false) rfl).2 hmore
  exact ⟨_, _, hrun, hmore, rfl, (hend rfl).1, (hend rfl).2, hdir⟩

/-- Both were started; the second one comes to the directory of the first. -/
def overtaken : List (CloneStep Bool) := steps true 1 ++ steps false 10 ++ steps true 5

/-- Both find the directory there and empty; the `git` of the second one fails, and empties it. -/
def intruding : List (CloneStep Bool) :=
  steps true 6 ++ steps false 7 ++ steps true 1 ++ steps false 3 ++
    [{ thread := true, answer := .gitFailed "remote origin already exists" }] ++ steps true 1

/-- **A success that is called an error, and a checkout that is swept away.** -/
theorem success_overwritten :
    (¬∀ (start : Clones Bool) acts s, (∀ t, start.phase t = .idle) →
      Machine.Runs (step job) (fun _ _ => True) start acts s →
        (∀ t, (s.phase t).isAtRest = true) →
        ∀ t, s.phase t = .exited 0 → s.status = .cloned) ∧
    ¬∀ (start : Clones Bool) acts s, (∀ t, start.phase t = .idle) →
      Machine.Runs (step job) (fun _ _ => True) start acts s →
        (∀ t, (s.phase t).isAtRest = true) →
        ∀ t, s.phase t = .exited 0 → s.dir = .checkout := by
  constructor
  · intro h
    have hcloned := h {} overtaken (after {} overtaken) (fun _ => rfl) (run_after rfl)
      (fun t => by cases t <;> rfl) false rfl
    exact absurd (show CloneStatus.error = .cloned from hcloned) (by simp)
  · intro h
    have hdir := h { dir := .empty } intruding (after { dir := .empty } intruding) (fun _ => rfl)
      (run_after rfl) (fun t => by cases t <;> rfl) false rfl
    exact absurd (show CloneDir.empty = .checkout from hdir) (by simp)

end TwoCloners

end OdooSemantic
