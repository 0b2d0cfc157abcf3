import Mathlib.Data.List.Basic

/-!
# Runs of a partial step function

A machine is a step function that says, for a state and an action, which state follows, if the
action is enabled. `Runs` are its finite executions; the second parameter is a condition each
step has to meet, so that one and the same induction (`Runs.invariant`) serves statements
about all runs and statements about the runs that keep to some discipline.

The last section is about logs that are kept newest first: what has happened since an event.
-/

namespace OdooSemantic
namespace Machine

variable {S A : Type}

/-- From `s` to `s'` by these actions, each of them enabled where it is taken, and `ok`. -/
inductive Runs (step : S → A → Option S) (ok : S → A → Prop) : S → List A → S → Prop
  | nil (s : S) : Runs step ok s [] s
  | cons {s s' s'' : S} {a : A} {as : List A} (h : step s a = some s') (hok : ok s a)
      (rest : Runs step ok s' as s'') : Runs step ok s (a :: as) s''

variable {step : S → A → Option S} {ok : S → A → Prop}

/-- **What every step keeps, a run keeps.** -/
theorem Runs.invariant {Inv : S → Prop}
    (hstep : ∀ s a s', step s a = some s' → ok s a → Inv s → Inv s') {s s' : S} {as : List A}
    (h : Runs step ok s as s') (hs : Inv s) : Inv s' := by
  induction h with
  | nil s => exact hs
  | cons ha hok _ ih => exact ih (hstep _ _ _ ha hok hs)

theorem Runs.imp {ok' : S → A → Prop} (hok : ∀ s a, ok s a → ok' s a) {s s' : S} {as : List A}
    (h : Runs step ok s as s') : Runs step ok' s as s' := by
  induction h with
  | nil s => exact .nil s
  | cons ha h _ ih => exact .cons ha (hok _ _ h) ih

/-- Where every action is enabled, a run is a fold. -/
theorem Runs.eq_foldl {next : S → A → S} {s s' : S} {as : List A}
    (h : Runs (fun s a => some (next s a)) ok s as s') : s' = as.foldl next s := by
  induction h with
  | nil s => rfl
  | cons ha _ _ ih => rw [ih, ← Option.some.inj ha, List.foldl_cons]

/-- Take the actions of a list, as long as each of them is `ok`. -/
def replay (step : S → A → Option S) (ok : S → A → Bool) : List A → S → Option S
  | [], s => some s
  | a :: as, s => if ok s a then (step s a).bind (replay step ok as) else none

/-- What can be replayed is a run. -/
theorem runs_of_replay {ok : S → A → Bool} {as : List A} {s s' : S}
    (h : replay step ok as s = some s') : Runs step (fun s a => ok s a = true) s as s' := by
  induction as generalizing s with
  | nil =>
    obtain rfl := Option.some.inj h
    exact .nil s
  | cons a as ih =>
    rw [replay] at h
    split at h
    · rename_i hok
      obtain ⟨t, ha, hrest⟩ := Option.bind_eq_some_iff.mp h
      exact .cons ha hok (ih hrest)
    · exact absurd h (by simp)

/-- What can be replayed without a condition, up to its end. -/
theorem runs_getD {as : List A} {s s' : S} (h : replay step (fun _ _ => true) as s = some s')
    (d : S) : Runs step (fun _ _ => True) s as ((replay step (fun _ _ => true) as s).getD d) := by
  rw [h]
  exact (runs_of_replay h).imp fun _ _ _ => trivial

/-! ## Logs, newest first -/

section Since

variable {E : Type}

/-- Something has happened, at an event `e` behind a log with `p e log`, and since then nothing
    that stops it. -/
inductive Since (p : E → List E → Prop) (stop : E → Prop) : List E → Prop
  | here {e : E} {older : List E} (h : p e older) : Since p stop (e :: older)
  | later {e : E} {older : List E} (h : Since p stop older) (hstop : ¬stop e) :
      Since p stop (e :: older)

variable {p : E → List E → Prop} {stop : E → Prop}

theorem since_cons_iff {e : E} {older : List E} :
    Since p stop (e :: older) ↔ p e older ∨ Since p stop older ∧ ¬stop e := by
  constructor
  · intro h
    cases h with
    | here h => exact Or.inl h
    | later h hstop => exact Or.inr ⟨h, hstop⟩
  · rintro (h | ⟨h, hstop⟩)
    · exact .here h
    · exact .later h hstop

theorem not_since_nil : ¬Since p stop [] := fun h => nomatch h

theorem Since.of_cons {e : E} {older : List E} (h : Since p stop (e :: older))
    (he : ¬p e older) : Since p stop older :=
  (since_cons_iff.mp h).elim (fun h => absurd h he) And.left

theorem Since.append {older : List E} (h : Since p stop older) {newer : List E}
    (hstop : ∀ e ∈ newer, ¬stop e) : Since p stop (newer ++ older) := by
  induction newer with
  | nil => exact h
  | cons e newer ih =>
    exact .later (ih fun e he => hstop e (List.mem_cons_of_mem _ he)) (hstop e List.mem_cons_self)

/-- If it did not begin lately, it began before. -/
theorem Since.of_append {newer older : List E} (h : Since p stop (newer ++ older))
    (hnewer : ∀ e ∈ newer, ∀ log, ¬p e log) : Since p stop older := by
  induction newer with
  | nil => exact h
  | cons e newer ih =>
    exact ih (h.of_cons (hnewer e List.mem_cons_self _)) fun f hf =>
      hnewer f (List.mem_cons_of_mem _ hf)

/-- The event it began with. -/
theorem Since.split {log : List E} (h : Since p stop log) :
    ∃ newer e older, log = newer ++ e :: older ∧ p e older ∧ ∀ f ∈ newer, ¬stop f := by
  induction h with
  | here h => exact ⟨[], _, _, rfl, h, fun _ hf => absurd hf (by simp)⟩
  | @later f older _ hstop ih =>
    obtain ⟨newer, e, older', rfl, hp, hnewer⟩ := ih
    refine ⟨f :: newer, e, older', rfl, hp, fun g hg => ?_⟩
    cases List.mem_cons.mp hg with
    | inl heq => exact heq ▸ hstop
    | inr hmem => exact hnewer g hmem

end Since

variable {E : Type} [DecidableEq E]

/-- What was logged after the event, or everything where there is no such event. -/
def since (e : E) (log : List E) : List E := log.takeWhile (· ≠ e)

@[simp] theorem since_cons_self (e : E) (log : List E) : since e (e :: log) = [] := by
  simp [since]

theorem since_cons_of_ne {e f : E} (h : f ≠ e) (log : List E) :
    since e (f :: log) = f :: since e log := by
  simp [since, h]

theorem since_append {e : E} {es : List E} (h : ∀ f ∈ es, f ≠ e) (log : List E) :
    since e (es ++ log) = es ++ since e log := by
  induction es with
  | nil => rfl
  | cons f es ih =>
    rw [List.cons_append, since_cons_of_ne (h f List.mem_cons_self),
      ih fun g hg => h g (List.mem_cons_of_mem _ hg), List.cons_append]

/-- Of two events, what came after the later one came after the earlier one. -/
theorem mem_since_of_notMem {e f g : E} {log : List E} (he : e ∈ log) (hf : e ∉ since f log)
    (hg : g ∈ since f log) : g ∈ since e log := by
  induction log with
  | nil => exact absurd he (by simp)
  | cons x log ih =>
    by_cases hxf : x = f
    · subst hxf
      rw [since_cons_self] at hg
      exact absurd hg (by simp)
    · rw [since_cons_of_ne hxf, List.mem_cons, not_or] at hf
      rw [since_cons_of_ne hxf] at hg
      rw [since_cons_of_ne (Ne.symm hf.1)]
      cases List.mem_cons.mp hg with
      | inl h => exact List.mem_cons.mpr (Or.inl h)
      | inr h =>
        have he' : e ∈ log := (List.mem_cons.mp he).resolve_left hf.1
        exact List.mem_cons_of_mem _ (ih he' hf.2 h)

end Machine
end OdooSemantic
