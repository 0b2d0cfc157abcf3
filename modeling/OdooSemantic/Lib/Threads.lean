import Mathlib.Data.List.Basic
import Mathlib.Logic.Function.Basic
import OdooSemantic.Lib.Machine

/-!
# Programs that share a state

A program runs on a state that is not its own. It takes one step at a time, and between two of its
steps the state may become anything. A step has a label, which says what it does to the state
(`effect`), and an input, which is what the surroundings make of it; what comes next hangs on the
input and on the state before.

`Prog.run` is the program on its own. A `Pool` has any number of programs take their steps in any
order, and keeps a trace. What a program has to say about its own steps (`Prog.Meets`) is checked
along the program once, and then holds at each entry of every trace (`obeys_run`); what the
programs do to each other is in the effects alone (`related_run`).
-/

namespace OdooSemantic
namespace Threads

variable {T S X L A : Type}

inductive Prog (S X L A : Type) where
  | done (a : A)
  | step (label : L) (next : X → S → Prog S X L A)

/-- A program on its own, and with one input for all its steps. -/
def Prog.run (effect : L → X → S → S) (x : X) : Prog S X L A → S → A × S
  | .done a, s => (a, s)
  | .step label next, s => (next x s).run effect x (effect label x s)

/-- … and with an input for each step. -/
def Prog.runWith (effect : L → X → S → S) (x : Nat → X) : Prog S X L A → S → A × S
  | .done a, s => (a, s)
  | .step label next, s =>
      (next (x 0) s).runWith effect (fun n => x (n + 1)) (effect label (x 0) s)

/-- A step of a thread. -/
structure Entry (T S X L : Type) where
  thread : T
  label : L
  input : X
  before : S

def Entry.after (effect : L → X → S → S) (e : Entry T S X L) : S :=
  effect e.label e.input e.before

/-- Threads and what they share. The trace is newest first. -/
structure Pool (T S X L A : Type) where
  state : S
  threads : T → Option (Prog S X L A) := fun _ => none
  trace : List (Entry T S X L) := []

inductive Act (T X : Type) where
  | begin (t : T)
  | take (t : T) (x : X)

/-- The state has come from where each entry has left it. -/
structure Pool.Related (effect : L → X → S → S) (Rel : S → S → Prop) (s₀ : S)
    (p : Pool T S X L A) : Prop where
  start : Rel s₀ p.state
  trace : ∀ e ∈ p.trace, Rel (e.after effect) p.state

theorem related_start {effect : L → X → S → S} {Rel : S → S → Prop} (hrefl : ∀ s, Rel s s) (s : S) :
    ({ state := s } : Pool T S X L A).Related effect Rel s :=
  ⟨hrefl s, fun _ he => absurd he (by simp)⟩

section Pool

variable [DecidableEq T] (effect : L → X → S → S) (prog : T → Prog S X L A)

namespace Pool

def begin (p : Pool T S X L A) (t : T) : Pool T S X L A :=
  { p with threads := Function.update p.threads t (some (prog t)) }

def take (p : Pool T S X L A) (t : T) (x : X) (label : L) (next : X → S → Prog S X L A) :
    Pool T S X L A where
  state := effect label x p.state
  threads := Function.update p.threads t (some (next x p.state))
  trace := ⟨t, label, x, p.state⟩ :: p.trace

def step (p : Pool T S X L A) : Act T X → Option (Pool T S X L A)
  | .begin t => if (p.threads t).isNone then some (p.begin prog t) else none
  | .take t x =>
      match p.threads t with
      | some (.step label next) => some (p.take effect t x label next)
      | _ => none

variable {effect prog}

theorem step_begin {p p' : Pool T S X L A} {t : T}
    (h : p.step effect prog (.begin t) = some p') :
    p.threads t = none ∧ p' = p.begin prog t := by
  rw [step] at h
  split at h
  · rename_i hnone
    exact ⟨Option.isNone_iff_eq_none.mp hnone, (Option.some.inj h).symm⟩
  · exact absurd h (by simp)

theorem step_take {p p' : Pool T S X L A} {t : T} {x : X}
    (h : p.step effect prog (.take t x) = some p') :
    ∃ label next, p.threads t = some (.step label next) ∧ p' = p.take effect t x label next := by
  rw [step] at h
  split at h
  · exact ⟨_, _, ‹_›, (Option.some.inj h).symm⟩
  · exact absurd h (by simp)

theorem threads_begin (p : Pool T S X L A) (t t' : T) :
    (p.begin prog t).threads t' = if t' = t then some (prog t) else p.threads t' := by
  by_cases h : t' = t <;> simp [begin, h]

theorem threads_take (p : Pool T S X L A) (t t' : T) (x : X) (label : L)
    (next : X → S → Prog S X L A) :
    (p.take effect t x label next).threads t' =
      if t' = t then some (next x p.state) else p.threads t' := by
  by_cases h : t' = t <;> simp [take, h]

end Pool

/-! ## What a program has to say about its own steps -/

/-- The steps of one thread. -/
def history (t : T) (trace : List (Entry T S X L)) : List (Entry T S X L) :=
  trace.filter fun e => e.thread = t

theorem history_cons_self (t : T) (label : L) (x : X) (s : S) (trace : List (Entry T S X L)) :
    history t (⟨t, label, x, s⟩ :: trace) = ⟨t, label, x, s⟩ :: history t trace := by
  simp [history]

theorem history_cons_ne {t : T} {e : Entry T S X L} {trace : List (Entry T S X L)}
    (h : e.thread ≠ t) : history t (e :: trace) = history t trace := by
  simp [history, h]

theorem mem_history {t : T} {e : Entry T S X L} {trace : List (Entry T S X L)} :
    e ∈ history t trace ↔ e ∈ trace ∧ e.thread = t := by
  simp [history]

/-- Behind the history `h`, the program meets `P` at each of its steps and `Q` at its end. -/
def Prog.Meets (t : T) (P : List (Entry T S X L) → L → Prop) (Q : List (Entry T S X L) → A → Prop) :
    Prog S X L A → List (Entry T S X L) → Prop
  | .done a, h => Q h a
  | .step label next, h => P h label ∧ ∀ x s, (next x s).Meets t P Q (⟨t, label, x, s⟩ :: h)

/-- Every thread has met, and goes on to meet, what it has to. -/
structure Pool.Obeys (P : T → List (Entry T S X L) → L → Prop)
    (Q : T → List (Entry T S X L) → A → Prop) (p : Pool T S X L A) : Prop where
  threads : ∀ t q, p.threads t = some q → q.Meets t (P t) (Q t) (history t p.trace)
  idle : ∀ t, p.threads t = none → history t p.trace = []
  trace : ∀ newer e older, p.trace = newer ++ e :: older →
    P e.thread (history e.thread older) e.label

/-- A split of a longer trace. -/
theorem append_of_cons_eq {E : Type} {e f : E} {trace newer older : List E}
    (h : e :: trace = newer ++ f :: older) :
    newer = [] ∧ e = f ∧ trace = older ∨
      ∃ newer', newer = e :: newer' ∧ trace = newer' ++ f :: older := by
  cases newer with
  | nil =>
    obtain ⟨he, htrace⟩ := List.cons.inj h
    exact Or.inl ⟨rfl, he, htrace⟩
  | cons e' newer' =>
    obtain ⟨rfl, htrace⟩ := List.cons.inj h
    exact Or.inr ⟨newer', rfl, htrace⟩

/-- Two places in one trace: the second is newer, the same, or older. -/
theorem append_cons_split {E : Type} {xs ys ns os : List E} {a b : E}
    (h : xs ++ a :: ys = ns ++ b :: os) :
    (∃ zs, xs = ns ++ b :: zs ∧ os = zs ++ a :: ys) ∨ (a = b ∧ ys = os) ∨
      ∃ zs, ns = xs ++ a :: zs ∧ ys = zs ++ b :: os := by
  induction xs generalizing ns with
  | nil =>
    cases append_of_cons_eq h with
    | inl hsame => exact Or.inr (Or.inl hsame.2)
    | inr holder =>
      obtain ⟨zs, rfl, rfl⟩ := holder
      exact Or.inr (Or.inr ⟨zs, rfl, rfl⟩)
  | cons x xs ih =>
    cases append_of_cons_eq h with
    | inl hnewer =>
      obtain ⟨rfl, rfl, rfl⟩ := hnewer
      exact Or.inl ⟨xs, rfl, rfl⟩
    | inr hrest =>
      obtain ⟨ns', rfl, hrest⟩ := hrest
      obtain ⟨zs, rfl, rfl⟩ | hsame | ⟨zs, rfl, rfl⟩ := ih hrest
      · exact Or.inl ⟨zs, rfl, rfl⟩
      · exact Or.inr (Or.inl hsame)
      · exact Or.inr (Or.inr ⟨zs, rfl, rfl⟩)

theorem append_cons_split_of_notMem {E : Type} {xs ys ns os : List E} {a b : E}
    (h : xs ++ a :: ys = ns ++ b :: os) (ha : a ∉ b :: os) :
    ∃ zs, ns = xs ++ a :: zs ∧ ys = zs ++ b :: os := by
  obtain ⟨zs, -, rfl⟩ | ⟨rfl, -⟩ | holder := append_cons_split h
  · exact absurd (List.mem_cons_of_mem _ (List.mem_append_right _ List.mem_cons_self)) ha
  · exact absurd List.mem_cons_self ha
  · exact holder

/-- The last step of a thread, in the whole trace. -/
theorem history_split {t : T} {trace h : List (Entry T S X L)} {f : Entry T S X L}
    (heq : history t trace = f :: h) : ∃ newer older, trace = newer ++ f :: older ∧
      f.thread = t ∧ (∀ e ∈ newer, e.thread ≠ t) ∧ h = history t older := by
  obtain ⟨newer, older, htrace, hnewer, hf, hrest⟩ := List.filter_eq_cons_iff.mp heq
  refine ⟨newer, older, htrace, of_decide_eq_true hf, fun e he heq => ?_, hrest.symm⟩
  exact hnewer e he (decide_eq_true heq)

section Obeys

variable {effect} {prog} {P : T → List (Entry T S X L) → L → Prop}
  {Q : T → List (Entry T S X L) → A → Prop}

theorem Pool.Obeys.begin {p : Pool T S X L A} (h : p.Obeys P Q) {t : T}
    (ht : p.threads t = none) (hmeets : (prog t).Meets t (P t) (Q t) []) :
    (p.begin prog t).Obeys P Q := by
  refine ⟨fun t' q hq => ?_, fun t' hnone => ?_, h.trace⟩
  · rw [threads_begin] at hq
    split at hq
    · rename_i heq
      obtain rfl := Option.some.inj hq
      subst heq
      rw [Pool.begin, h.idle t' ht]
      exact hmeets
    · exact h.threads t' q hq
  · rw [threads_begin] at hnone
    split at hnone
    · exact absurd hnone (by simp)
    · exact h.idle t' hnone

theorem Pool.Obeys.take {p : Pool T S X L A} (h : p.Obeys P Q) {t : T} {x : X} {label : L}
    {next : X → S → Prog S X L A} (ht : p.threads t = some (.step label next)) :
    (p.take effect t x label next).Obeys P Q := by
  obtain ⟨hP, hnext⟩ := h.threads t _ ht
  refine ⟨fun t' q hq => ?_, fun t' hnone => ?_, fun newer e older heq => ?_⟩
  · rw [threads_take] at hq
    split at hq
    · rename_i heq
      obtain rfl := Option.some.inj hq
      subst heq
      rw [Pool.take, history_cons_self]
      exact hnext x p.state
    · rename_i hne
      rw [Pool.take, history_cons_ne (Ne.symm hne)]
      exact h.threads t' q hq
  · rw [threads_take] at hnone
    split at hnone
    · exact absurd hnone (by simp)
    · rename_i hne
      rw [Pool.take, history_cons_ne (Ne.symm hne)]
      exact h.idle t' hnone
  · cases append_of_cons_eq heq with
    | inl hnew =>
      obtain ⟨-, rfl, rfl⟩ := hnew
      exact hP
    | inr hold =>
      obtain ⟨newer', -, htrace⟩ := hold
      exact h.trace newer' e older htrace

theorem obeys_start (s : S) : ({ state := s } : Pool T S X L A).Obeys P Q where
  threads := fun _ _ h => absurd h (by simp)
  idle := fun _ _ => rfl
  trace := fun newer _ _ h => absurd h (by simp)

/-- **What each program meets on its own, every run meets.** -/
theorem obeys_step {p p' : Pool T S X L A} {a : Act T X}
    (hmeets : ∀ t, (prog t).Meets t (P t) (Q t) []) (hstep : p.step effect prog a = some p')
    (h : p.Obeys P Q) : p'.Obeys P Q := by
  cases a with
  | begin t =>
    obtain ⟨ht, rfl⟩ := Pool.step_begin hstep
    exact h.begin ht (hmeets t)
  | take t x =>
    obtain ⟨label, next, ht, rfl⟩ := Pool.step_take hstep
    exact h.take ht

theorem obeys_run {ok : Pool T S X L A → Act T X → Prop} {s : S} {acts : List (Act T X)}
    {p : Pool T S X L A} (hmeets : ∀ t, (prog t).Meets t (P t) (Q t) [])
    (hrun : Machine.Runs (Pool.step effect prog) ok { state := s } acts p) : p.Obeys P Q := by
  refine hrun.invariant (fun _ _ _ hstep _ h => ?_) (obeys_start s)
  exact obeys_step hmeets hstep h

end Obeys

/-! ## What holds at every step -/

/-- `K` holds of the trace and the state, and held of them before each step, and `Ok` of the step. -/
structure Pool.Traced (K : List (Entry T S X L) → S → Prop)
    (Ok : Entry T S X L → List (Entry T S X L) → Prop) (p : Pool T S X L A) : Prop where
  now : K p.trace p.state
  before : ∀ newer e older, p.trace = newer ++ e :: older → K older e.before ∧ Ok e older

section Traced

variable {effect} {prog} {K : List (Entry T S X L) → S → Prop}
  {Ok : Entry T S X L → List (Entry T S X L) → Prop}

/-- **What every step keeps of the trace and the state** held all along. -/
theorem traced_run {ok : Pool T S X L A → Act T X → Prop} {s : S} {acts : List (Act T X)}
    {p : Pool T S X L A} (hstart : K [] s)
    (hstep : ∀ e trace, K trace e.before → Ok e trace → K (e :: trace) (e.after effect))
    (hok : ∀ p t x label next, ok p (.take t x) → p.threads t = some (.step label next) →
      Ok ⟨t, label, x, p.state⟩ p.trace)
    (hrun : Machine.Runs (Pool.step effect prog) ok { state := s } acts p) : p.Traced K Ok := by
  refine hrun.invariant (fun p a p' hp hpok h => ?_) ⟨hstart, fun newer e older heq => ?_⟩
  · cases a with
    | begin t =>
      obtain ⟨-, rfl⟩ := Pool.step_begin hp
      exact ⟨h.now, h.before⟩
    | take t x =>
      obtain ⟨label, next, ht, rfl⟩ := Pool.step_take hp
      have hentry := hok p t x label next hpok ht
      refine ⟨hstep ⟨t, label, x, p.state⟩ p.trace h.now hentry, fun newer e older heq => ?_⟩
      cases append_of_cons_eq heq with
      | inl hnew =>
        obtain ⟨-, rfl, rfl⟩ := hnew
        exact ⟨h.now, hentry⟩
      | inr hold =>
        obtain ⟨newer', -, htrace⟩ := hold
        exact h.before newer' e older htrace
  · exact absurd heq (by simp)

end Traced

/-! ## What the programs do to each other -/

section Related

variable {effect} {prog} {Rel : S → S → Prop}

theorem Pool.Related.begin {s₀ : S} {p : Pool T S X L A} (h : p.Related effect Rel s₀) (t : T) :
    (p.begin prog t).Related effect Rel s₀ :=
  ⟨h.start, h.trace⟩

theorem Pool.Related.take (hrefl : ∀ s, Rel s s)
    (htrans : ∀ {s s' s''}, Rel s s' → Rel s' s'' → Rel s s'') {s₀ : S} {p : Pool T S X L A}
    (h : p.Related effect Rel s₀) {t : T} {x : X} {label : L} {next : X → S → Prog S X L A}
    (hrel : Rel p.state (effect label x p.state)) :
    (p.take effect t x label next).Related effect Rel s₀ := by
  refine ⟨htrans h.start hrel, fun e he => ?_⟩
  cases List.mem_cons.mp he with
  | inl heq =>
    rw [heq]
    exact hrefl _
  | inr hold => exact htrans (h.trace e hold) hrel

end Related

end Pool

end Threads
end OdooSemantic
